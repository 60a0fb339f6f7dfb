import ScriptDebug.Proofs.CallStack.Callers
import ScriptDebug.Proofs.Hook.Quiet

/-!
# Events that tell the depth

A hook for calls and returns hears of every change of the depth of its thread, after it was
made.  So the depth at a delivery is told by the events so far.  Between a notification and
the delivery of its event the two differ by one; a thread is tracked with its calls and the
calls that its events told of, counted from a base machine.

## Implementation notes

Once another hook is installed nothing is claimed any more, so tracking goes on without a
hypothesis that the hook stays.
-/

namespace ScriptDebug

namespace HookEvent

/-- How many calls an event tells of. -/
def calls : HookEvent → Nat
  | call => 1
  | _ => 0

/-- How many returns an event tells of. -/
def returns : HookEvent → Nat
  | ret => 1
  | _ => 0

end HookEvent

namespace Delivery

/-- The number of call events. -/
def callCount (ds : List Delivery) : Nat := ds.countP (·.event = .call)

/-- The number of return events. -/
def returnCount (ds : List Delivery) : Nat := ds.countP (·.event = .ret)

/-- At every delivery there were no more returns than calls, this event included, and the depth
is that of the start, with one call more for each call event and one less for each return
event. -/
def TellDepth (start : Nat) (ds : List Delivery) : Prop :=
  ∀ before d after, ds = before ++ d :: after →
    returnCount (before ++ [d]) ≤ callCount (before ++ [d]) ∧
      d.depth + returnCount (before ++ [d]) = start + callCount (before ++ [d])

variable {ds : List Delivery} {start : Nat}

theorem callCount_concat (ds : List Delivery) (d : Delivery) :
    callCount (ds ++ [d]) = callCount ds + d.event.calls := by
  rw [callCount, List.countP_append, List.countP_singleton]
  cases d.event <;> rfl

theorem returnCount_concat (ds : List Delivery) (d : Delivery) :
    returnCount (ds ++ [d]) = returnCount ds + d.event.returns := by
  rw [returnCount, List.countP_append, List.countP_singleton]
  cases d.event <;> rfl

theorem TellDepth.nil (start : Nat) : TellDepth start [] := by
  intro before d after heq
  simp at heq

/-- One delivery more is a matter of the events up to it. -/
theorem TellDepth.concat (h : TellDepth start ds) {d : Delivery}
    (hle : returnCount (ds ++ [d]) ≤ callCount (ds ++ [d]))
    (hdepth : d.depth + returnCount (ds ++ [d]) = start + callCount (ds ++ [d])) :
    TellDepth start (ds ++ [d]) := by
  intro before d' after heq
  obtain ⟨rfl, rfl⟩ | ⟨after', hds⟩ := concat_eq_append_cons_cases heq
  · exact ⟨hle, hdepth⟩
  · exact h before d' after' hds

end Delivery

/-- A command that reports no call, no return and no unwinding of a thread: these are left to
native calls and the interpreter. -/
def Command.SparesCalls (th : ThreadId) (c : Command) : Prop :=
  match c.action with
  | .notify a => a.isInstruction = true ∨ ∃ th', c.modifiers.thread = some th' ∧ th' ≠ th
  | _ => True

theorem Command.SparesCalls.target {th : ThreadId} {c : Command} (h : c.SparesCalls th)
    {a : Notification} (ha : c.action = .notify a) (hinstruction : a.isInstruction = false)
    (here : Surroundings) : Exec.targetThread here c ≠ th := by
  simp only [SparesCalls, ha, hinstruction, Bool.false_eq_true, false_or] at h
  obtain ⟨th', hthread, hne⟩ := h
  rwa [Exec.targetThread, hthread]

namespace Machine

open Delivery

/-- The hook of a thread still hears of calls and returns; the thread has `own` calls more
than the base machine, and its events told of `told` more calls than returns. -/
structure Balanced (base : Machine) (th : ThreadId) (own told : Nat) (ds : List Delivery)
    (m : Machine) : Prop where
  function : (m.hook th).function.isSome
  call : (m.hook th).mask.call = true
  ret : (m.hook th).mask.ret = true
  depth : m.depth th = base.depth th + own
  count : callCount ds = returnCount ds + told
  tell : TellDepth (base.depth th) ds

/-- The events that a thread got since the base machine tell its depth, unless it got another
hook.  It is inside its hook or not, and has `own` calls more of which `told` were told. -/
structure Tracked (base : Machine) (th : ThreadId) (inside : Bool) (own told : Nat)
    (m : Machine) : Prop where
  bodies : m.store.Every (·.SparesCalls th)
  mark : (m.hook th).inHook = inside
  history : ∃ rs, m.history th = base.history th ++ rs ∧
    (rs.filterMap (·.installation?) = [] →
      ∃ ds : List Delivery, rs = ds.map .delivered ∧ Balanced base th own told ds m)

variable {base m m' : Machine} {th th' : ThreadId} {inside : Bool} {own told : Nat}

namespace Balanced

variable {ds : List Delivery}

/-- What leaves the thread alone leaves it balanced. -/
theorem congr (h : Balanced base th own told ds m) (hthread : m'.thread th = m.thread th) :
    Balanced base th own told ds m' := by
  have hhook : m'.hook th = m.hook th := congrArg (·.hook) hthread
  have hdepth : m'.depth th = m.depth th := congrArg (·.depth) hthread
  exact ⟨by rw [hhook, h.function], by rw [hhook, h.call], by rw [hhook, h.ret],
    by rw [hdepth, h.depth], h.count, h.tell⟩

/-- What leaves the setup of the hook alone is a matter of the depth. -/
theorem change {own' : Nat} (h : Balanced base th own told ds m)
    (hsetup : Hook.SameSetup (m.hook th) (m'.hook th))
    (hdepth : m'.depth th = base.depth th + own') : Balanced base th own' told ds m' :=
  ⟨by rw [hsetup.function, h.function], by rw [hsetup.mask, h.call],
    by rw [hsetup.mask, h.ret], hdepth, h.count, h.tell⟩

/-- A thread with a hook exists. -/
theorem isSome (h : Balanced base th own told ds m) : (m.thread? th).isSome := by
  obtain ⟨f, hf⟩ := Option.isSome_iff_exists.mp h.function
  exact isSome_of_function hf

end Balanced

namespace Tracked

/-- A thread outside its hook, with a hook for calls and returns. -/
theorem refl (hbodies : m.store.Every (·.SparesCalls th)) (hout : (m.hook th).inHook = false)
    (hfunction : (m.hook th).function.isSome) (hcall : (m.hook th).mask.call = true)
    (hret : (m.hook th).mask.ret = true) : Tracked m th false 0 0 m :=
  ⟨hbodies, hout, [], (List.append_nil _).symm,
    fun _ => ⟨[], rfl, hfunction, hcall, hret, rfl, rfl, .nil _⟩⟩

/-- What leaves the thread and its history alone goes unnoticed. -/
theorem congr (h : Tracked base th inside own told m) (hbodies : m'.store.Every (·.SparesCalls th))
    (hthread : m'.thread th = m.thread th) (hhistory : m'.history th = m.history th) :
    Tracked base th inside own told m' := by
  have hhook : m'.hook th = m.hook th := congrArg (·.hook) hthread
  obtain ⟨rs, hrs, hbalanced⟩ := h.history
  refine ⟨hbodies, by rw [hhook, h.mark], rs, hhistory.trans hrs, fun hnone => ?_⟩
  obtain ⟨ds, hds, hb⟩ := hbalanced hnone
  exact ⟨ds, hds, hb.congr hthread⟩

theorem setHook (h : Tracked base th inside own told m) (th' : ThreadId) (f : Option FunctionId)
    (mask : String) (count : Nat) :
    Tracked base th inside own told (m.setHook th' f mask count) := by
  by_cases hth : th' = th
  · subst hth
    obtain ⟨rs, hrs, -⟩ := h.history
    refine ⟨h.bodies, ?_, rs ++ [.installed th' ((m.hook th').replace f mask count)], ?_, ?_⟩
    · rw [← h.mark, Machine.hook, thread_setHook]
      split
      · exact Hook.replace_inHook _ f mask count
      · rfl
    · rw [history_setHook_self, hrs, List.append_assoc]
    · intro hnone
      simp [List.filterMap_append, HookRecord.installation?] at hnone
  · exact h.congr h.bodies (thread_setHook_ne hth f mask count)
      (history_setHook_ne hth f mask count)

theorem steady (base : Machine) (th : ThreadId) (inside : Bool) (own told : Nat) :
    Steady (·.SparesCalls th) (Tracked base th inside own told) where
  calm h hcalm := h.congr (hcalm.bodies h.bodies) (hcalm.thread th)
    (history_congr hcalm.journal th)
  setHook th' f mask count h := h.setHook th' f mask count

/-- Changes of another thread are none of its business. -/
theorem setThread_ne (h : Tracked base th inside own told m) (hth : th' ≠ th) (t : Thread) :
    Tracked base th inside own told (m.setThread th' t) :=
  h.congr h.bodies (thread_setThread_ne hth t) rfl

theorem noted_ne {pending : Option PendingEvents} (h : Tracked base th inside own told m)
    (hn : Noted th' m m' pending) (hth : th' ≠ th) : Tracked base th inside own told m' :=
  h.congr (hn.store ▸ h.bodies) (hn.others th hth.symm) (history_congr hn.journal th)

theorem recordDelivery_ne (h : Tracked base th inside own told m) (hth : th' ≠ th)
    (f : FunctionId) (e : HookEvent) :
    Tracked base th inside own told (m.recordDelivery th' f e) :=
  h.congr h.bodies rfl (history_recordDelivery_ne hth f e)

/-- A notification of the thread changes its calls, as long as the hook is balanced. -/
theorem noted {own' : Nat} {pending : Option PendingEvents}
    (h : Tracked base th inside own told m) (hn : Noted th m m' pending)
    (hdepth : (m.thread? th).isSome → m.depth th = base.depth th + own →
      m'.depth th = base.depth th + own') : Tracked base th inside own' told m' := by
  obtain ⟨rs, hrs, hbalanced⟩ := h.history
  refine ⟨hn.store ▸ h.bodies, by rw [hn.setup.inHook, h.mark], rs,
    (history_congr hn.journal th).trans hrs, fun hnone => ?_⟩
  obtain ⟨ds, hds, hb⟩ := hbalanced hnone
  exact ⟨ds, hds, hb.change hn.setup (hdepth hb.isSome hb.depth)⟩

/-- Where the hook is not balanced, nothing is claimed of the calls. -/
theorem of_unbalanced {own' told' : Nat} (h : Tracked base th inside own told m)
    (hunbalanced : ∀ ds, ¬ Balanced base th own told ds m) :
    Tracked base th inside own' told' m := by
  obtain ⟨rs, hrs, hbalanced⟩ := h.history
  refine ⟨h.bodies, h.mark, rs, hrs, fun hnone => ?_⟩
  obtain ⟨ds, -, hb⟩ := hbalanced hnone
  exact (hunbalanced ds hb).elim

/-- The mark of a running hook changes nothing but the mark. -/
theorem setInHook (h : Tracked base th inside own told m) (hth : (m.thread? th).isSome)
    (b : Bool) : Tracked base th b own told (m.setInHook th b) := by
  have hhook := hook_setInHook_self hth b
  obtain ⟨rs, hrs, hbalanced⟩ := h.history
  refine ⟨h.bodies, by rw [hhook], rs, hrs, fun hnone => ?_⟩
  obtain ⟨ds, hds, hb⟩ := hbalanced hnone
  refine ⟨ds, hds, by rw [hhook]; exact hb.function, by rw [hhook]; exact hb.call,
    by rw [hhook]; exact hb.ret, ?_, hb.count, hb.tell⟩
  rw [← hb.depth]
  simp only [depth, Thread.depth, Thread.calls, stack_setInHook]

/-- An event goes out that accounts for all calls that were not told yet. -/
theorem recordDelivery (h : Tracked base th inside own told m) (f : FunctionId) {e : HookEvent}
    (he : told + e.calls = own + e.returns) :
    Tracked base th inside own own (m.recordDelivery th f e) := by
  obtain ⟨rs, hrs, hbalanced⟩ := h.history
  have hhistory : (m.recordDelivery th f e).history th =
      base.history th ++ (rs ++ [.delivered (m.deliveryNow th f e)]) := by
    rw [history_recordDelivery_self, hrs, List.append_assoc]
  refine ⟨h.bodies, h.mark, _, hhistory, fun hnone => ?_⟩
  rw [List.filterMap_append] at hnone
  obtain ⟨ds, rfl, hb⟩ := hbalanced (List.append_eq_nil_iff.mp hnone).1
  have hcalls := callCount_concat ds (m.deliveryNow th f e)
  have hreturns := returnCount_concat ds (m.deliveryNow th f e)
  have hcount := hb.count
  have hdepth : (m.deliveryNow th f e).depth = base.depth th + own := hb.depth
  have hevent : (m.deliveryNow th f e).event = e := rfl
  rw [hevent] at hcalls hreturns
  refine ⟨ds ++ [m.deliveryNow th f e], by simp, hb.function, hb.call, hb.ret, hb.depth, ?_, ?_⟩
  · omega
  · exact hb.tell.concat (by omega) (by omega)

/-- While the hook runs, the calls of its thread stay as they are. -/
theorem quiet (h : Tracked base th true own told m)
    (hquiet : Quiet (·.SparesCalls th) th (· = (m.thread th).stack) m m') :
    Tracked base th true own told m' := by
  obtain ⟨rs, hrs, hbalanced⟩ := h.history
  obtain ⟨hooks, hhooks, hlast⟩ := hquiet.history
  have hhistory : m'.history th = base.history th ++ (rs ++ hooks.map (.installed th)) := by
    rw [hhooks, hrs, List.append_assoc]
  refine ⟨hquiet.bodies, hquiet.inHook, _, hhistory, fun hnone => ?_⟩
  rw [List.filterMap_append, HookRecord.filterMap_installation?_installed,
    List.append_eq_nil_iff] at hnone
  obtain ⟨hnone, rfl⟩ := hnone
  obtain ⟨ds, rfl, hb⟩ := hbalanced hnone
  have hhook : (m'.thread th).hook = (m.thread th).hook := hlast
  have hthread : m'.thread th = m.thread th := by
    calc
      m'.thread th = ⟨(m'.thread th).stack, (m'.thread th).hook⟩ := rfl
      _ = m.thread th := by rw [hquiet.stack, hhook]
  exact ⟨ds, by simp, hb.congr hthread⟩

/-! ## Notifications of the thread -/

theorem noteCall (h : Tracked base th false own told m) (fr : Frame) :
    Tracked base th false (own + 1) told (m.noteCall th fr).1 := by
  apply h.noted (m.noteCall_noted th fr)
  intro hth hdepth
  rw [noteCall_outside h.mark, Machine.depth, thread_setThread_self hth]
  change ((m.calls th).push fr).depth = _
  rw [CallStack.push_depth]
  exact congrArg (· + 1) hdepth

theorem noteReturn (h : Tracked base th false (own + 1) told m) :
    Tracked base th false own told (m.noteReturn th).1 := by
  apply h.noted (m.noteReturn_noted th)
  intro hth hdepth
  rw [noteReturn_outside h.mark, Machine.depth, thread_setThread_self hth]
  change (m.calls th).pop.depth = _
  rw [CallStack.pop_depth]
  exact congrArg (· - 1) hdepth

theorem noteInstruction (h : Tracked base th false own told m) (pc : Nat) (varargs : List Value)
    (top : Nat) : Tracked base th false own told (m.noteInstruction th pc varargs top).1 := by
  apply h.noted (m.noteInstruction_noted th pc varargs top)
  intro hth hdepth
  have hout : (m.thread th).hook.inHook = false := h.mark
  have hthread : (m.noteInstruction th pc varargs top).1.thread th =
      ((m.thread th).noteInstruction (fun fr => fr.line? m.store) pc varargs top).1 := by
    simp only [Machine.noteInstruction, hout]
    rw [if_neg Bool.false_ne_true, (Calm.recordTrace (P := fun _ => True) _ th).thread th]
    exact thread_setThread_self hth _
  rw [← hdepth, Machine.depth, hthread]
  simp only [Thread.noteInstruction, hout]
  rw [if_neg Bool.false_ne_true]
  exact CallStack.mapTop_depth _ _

/-- A balanced hook hears of every call. -/
theorem noteCall_unheard (h : Tracked base th false own told m) {fr : Frame}
    (hnone : (m.noteCall th fr).2 = none) :
    Tracked base th false (own + 1) (own + 1) (m.noteCall th fr).1 := by
  apply (h.noteCall fr).of_unbalanced
  intro ds hb
  have hsetup := (m.noteCall_noted th fr).setup
  obtain ⟨f, hf⟩ := Option.isSome_iff_exists.mp hb.function
  rw [hsetup.function] at hf
  have hcall := hb.call
  rw [hsetup.mask] at hcall
  rw [noteCall_outside h.mark] at hnone
  simp [Hook.callEvents, Hook.armed?, h.mark, hf, hcall] at hnone

/-- A balanced hook hears of every return. -/
theorem noteReturn_unheard (h : Tracked base th false (own + 1) told m)
    (hnone : (m.noteReturn th).2 = none) : Tracked base th false own own (m.noteReturn th).1 := by
  apply h.noteReturn.of_unbalanced
  intro ds hb
  have hsetup := (m.noteReturn_noted th).setup
  obtain ⟨f, hf⟩ := Option.isSome_iff_exists.mp hb.function
  rw [hsetup.function] at hf
  have hret := hb.ret
  rw [hsetup.mask] at hret
  rw [noteReturn_outside h.mark] at hnone
  simp [Hook.returnEvents, Hook.armed?, h.mark, hf, hret] at hnone

end Tracked

end Machine

namespace Hook

variable {h : Hook} {p : PendingEvents}

theorem events_of_callEvents (hp : h.callEvents = some p) : p.events = [.call] := by
  obtain ⟨f, -, hp⟩ := Option.bind_eq_some_iff.mp hp
  split at hp
  · cases hp
    rfl
  · cases hp

theorem events_of_returnEvents (hp : h.returnEvents = some p) : p.events = [.ret] := by
  obtain ⟨f, -, hp⟩ := Option.bind_eq_some_iff.mp hp
  split at hp
  · cases hp
    rfl
  · cases hp

/-- An instruction calls for events that tell of no call and no return. -/
theorem events_of_instructionEvents {line : Option Nat}
    (hp : (h.instructionEvents line).2 = some p) :
    ∀ e ∈ p.events, e.calls = 0 ∧ e.returns = 0 := by
  unfold instructionEvents at hp
  split at hp
  · cases hp
  · obtain ⟨-, hcount⟩ := h.countInstruction_spec
    obtain ⟨-, hline⟩ := h.countInstruction.1.noteLine_spec line
    dsimp only at hp
    split at hp
    · cases hp
    · cases hp
      intro e he
      obtain he | he := List.mem_append.mp he
      · obtain hnil | ⟨hone, -⟩ := hcount
        · rw [hnil] at he
          cases he
        · rw [hone, List.mem_singleton] at he
          rw [he]
          exact ⟨rfl, rfl⟩
      · obtain hnil | ⟨n, hone, -⟩ := hline
        · rw [hnil] at he
          cases he
        · rw [hone, List.mem_singleton] at he
          rw [he]
          exact ⟨rfl, rfl⟩

end Hook

end ScriptDebug
