import ScriptDebug.Proofs.Hook.Tracked
import ScriptDebug.Proofs.Scenario.Lockstep

/-!
# Call and return events of whole runs

In a run in which no call fails, the call and return events of a thread tell its depth at
every delivery, and balance when the outermost call returns.  Calls that the hook makes
contribute nothing, and may fail.

## Implementation notes

That no call fails is a matter of the run: in a strict run a call that fails while the
thread is outside its hook ends everything.  A strict run that ends with a result is the
run without an escort.
-/

namespace ScriptDebug

namespace Exec

open Machine

/-- While a thread is outside its hook, every call must succeed. -/
def strict (th : ThreadId) : Escort where
  call _ _ x := fun s =>
    if (s.machine.hook th).inHook then x s
    else
      match x s with
      | .ok vs s' => .ok vs s'
      | .error _ s' => .error .tooDeep s'
  command _ _ x := x

variable {th th' : ThreadId} {base m : Machine} {call call' : Caller} {run run' : BodyRunner}
  {own told : Nat}

/-- Success is all that counts of a call that must succeed. -/
theorem Simulates.strict {I : Machine → Prop} {R : Session → Session → Prop}
    (hout : ∀ m, I m → (m.hook th).inHook = false) {f : FunctionId} {x y : Exec (List Value)}
    (h : Simulates Always (Twice I) R x y) :
    Simulates Deep (Twice I) R ((Exec.strict th).call th' f x) y := by
  intro s t hst
  have hguard : ¬ (s.machine.hook th).inHook = true := by simp [hout _ hst.2]
  have hcall : (Exec.strict th).call th' f x s =
      match x s with
      | .ok vs s' => .ok vs s'
      | .error _ s' => .error .tooDeep s' := if_neg hguard
  cases hx : x s with
  | error e s' => exact .inl ⟨.tooDeep, s', by rw [hcall, hx], rfl⟩
  | ok vs s' =>
      rw [hx] at hcall
      obtain ⟨_, _, hx', _⟩ | ⟨houtcome, hfinal⟩ := h s t hst
      · cases hx.symm.trans hx'
      · refine .inr ⟨?_, ?_⟩
        · rw [outcome_of_ok hcall, ← outcome_of_ok hx, houtcome]
        · rw [final_of_ok hcall, ← final_of_ok hx]
          exact hfinal

/-! ## Inside the hook -/

/-- While a thread is inside its hook, both callers do the same and keep the thread quiet. -/
def QuietCalls (th : ThreadId) (call call' : Caller) : Prop :=
  ∀ (base : Machine) (stack : Option CallStack) (th' : ThreadId) (f : FunctionId)
    (args : List Value), Agree (Quiet (·.SparesCalls th) th (· = stack) base)
      (call th' f args) (call' th' f args)

/-- Spared calls are not unwound. -/
theorem keepsStack_eq (th : ThreadId) (stack : Option CallStack) :
    KeepsStack (·.SparesCalls th) th (· = stack) where
  unwound := by
    rintro t t' rfl hstack
    have hdepth : t'.depth = t.depth := by rw [Thread.depth, Thread.calls, hstack]; rfl
    rw [Thread.unwindTo, if_neg (by omega), hstack]
  unwind := by
    intro t d here c hc ha htarget
    exact absurd htarget (hc.target ha rfl here)

/-- Inside the hook a strict run is the run itself. -/
theorem quietCalls_strict (th : ThreadId) (n : Nat) :
    QuietCalls th (escortedCall (strict th) n) (Exec.call n) := by
  intro base stack th' f args
  have hinvariant := Quiet.reportInvariant (keepsStack_eq th stack) base
  have hcall := (hinvariant.runInvariant.escorted (e := strict th) ?_ ?_ n).1 () th' f args
  · intro s hs
    obtain ⟨heq, hfinal⟩ := hcall s hs
    exact ⟨heq.symm, by simpa only [final, heq] using hfinal⟩
  · intro _ th' f x y hxy s hs
    have hstrict : (strict th).call th' f y s = y s := if_pos hs.inHook
    obtain ⟨heq, hfinal⟩ := hxy s hs
    exact ⟨heq.trans hstrict.symm, hfinal⟩
  · exact fun _ _ _ _ _ hxy => hxy

/-- A call of the hook leaves the thread tracked. -/
theorem QuietCalls.tracked (hquiet : QuietCalls th call call') (th' : ThreadId) (f : FunctionId)
    (args : List Value) :
    Agree (Tracked base th true own told) (call th' f args) (call' th' f args) := by
  apply Leads.of_each
  intro m hm
  have hstart : Quiet (·.SparesCalls th) th (· = (m.thread th).stack) m m :=
    .refl hm.bodies hm.mark rfl
  exact ((hquiet m _ th' f args).leads_from hstart).mono (fun _ => id) fun m' hm' => hm.quiet hm'

/-- One event that accounts for all calls. -/
theorem QuietCalls.deliver_one (hquiet : QuietCalls th call call') (f : FunctionId) {e : HookEvent}
    (he : told + e.calls = own + e.returns) :
    Leads (Tracked base th true own told) (Tracked base th true own own)
      (deliverAll call th f [e]) (deliverAll call' th f [e]) :=
  .onMachine_bind (fun _ hm => hm.recordDelivery f he)
    (.bind (hquiet.tracked th f e.args) (fun _ => Agree.pure ()) fun _ => id)

/-- Events that tell of no call and no return. -/
theorem QuietCalls.deliver_inert (hquiet : QuietCalls th call call') (f : FunctionId)
    {es : List HookEvent} (hes : ∀ e ∈ es, e.calls = 0 ∧ e.returns = 0) :
    Agree (Tracked base th true own own) (deliverAll call th f es) (deliverAll call' th f es) := by
  induction es with
  | nil => exact .pure ()
  | cons e es ih =>
      obtain ⟨hcalls, hreturns⟩ := hes e List.mem_cons_self
      refine Leads.onMachine_bind (fun _ hm => hm.recordDelivery f (by omega)) ?_
      exact .bind (hquiet.tracked th f e.args) (fun _ =>
        ih fun e' he' => hes e' (List.mem_cons_of_mem e he')) fun _ => id

/-! ## Reports -/

/-- A report of the thread itself, from what its notification does and what its events tell. -/
theorem report_tracked {note : Machine → Machine × Option PendingEvents} {own' told' : Nat}
    (hnoted : ∀ m, Noted th m (note m).1 (note m).2)
    (hnote : ∀ m, Tracked base th false own own m → Tracked base th false own' told' (note m).1)
    (hunheard : ∀ m, Tracked base th false own own m → (note m).2 = none →
      Tracked base th false own' own' (note m).1)
    (hdeliver : ∀ m p, (m.hook th).inHook = false → (note m).2 = some p →
      Leads (Tracked base th true own' told') (Tracked base th true own' own')
        (deliverAll call th p.function p.events) (deliverAll call' th p.function p.events)) :
    Leads (Tracked base th false own own) (Tracked base th false own' own')
      (fromMachine note >>= deliver call th) (fromMachine note >>= deliver call' th) := by
  apply Leads.fromMachine_bind
  intro m hm
  have hafter := hnote m hm
  cases hp : (note m).2 with
  | none => exact (Agree.pure ()).leads_from (hunheard m hm hp)
  | some p =>
      have hcalls := (hnoted m).pending p hp
      have hth := isSome_of_function hcalls.function
      apply Leads.machine_bind
      rintro _ rfl
      have hout : ¬ ((note m).1.hook th).inHook = true := by simp [hcalls.outside]
      rw [if_neg hout, if_neg hout]
      apply Leads.onMachine_from
      have hmarked := hafter.setInHook hth true
      have hevents : Leads (· = (note m).1.setInHook th true) (Tracked base th true own' own')
          (deliverAll call th p.function p.events) (deliverAll call' th p.function p.events) :=
        (hdeliver m p hm.mark hp).mono (fun _ heq => heq ▸ hmarked) fun _ => id
      refine hevents.attempt_bind fun r => ?_
      refine .onMachine_bind (J := Tracked base th false own' own') (fun m' hm' => ?_) (Agree.resume r)
      exact hm'.setInHook (isSome_of_inHook hm'.mark) false

theorem enter_tracked (hquiet : QuietCalls th call call') (fr : Frame) :
    Leads (Tracked base th false own own) (Tracked base th false (own + 1) (own + 1))
      (enter call th fr) (enter call' th fr) := by
  refine report_tracked (fun m => m.noteCall_noted th fr) (fun m hm => hm.noteCall fr)
    (fun m hm => hm.noteCall_unheard) fun m p hout hp => ?_
  rw [noteCall_outside hout] at hp
  rw [Hook.events_of_callEvents hp]
  exact hquiet.deliver_one p.function rfl

theorem leave_tracked (hquiet : QuietCalls th call call') :
    Leads (Tracked base th false (own + 1) (own + 1)) (Tracked base th false own own)
      (leave call th) (leave call' th) := by
  refine report_tracked (fun m => m.noteReturn_noted th) (fun m hm => hm.noteReturn)
    (fun m hm => hm.noteReturn_unheard) fun m p hout hp => ?_
  rw [noteReturn_outside hout] at hp
  rw [Hook.events_of_returnEvents hp]
  exact hquiet.deliver_one p.function rfl

theorem step_tracked (hquiet : QuietCalls th call call') (pc : Nat) (varargs : List Value)
    (top : Nat) : Leads (Tracked base th false own own) (Tracked base th false own own)
      (step call th pc varargs top) (step call' th pc varargs top) := by
  refine report_tracked (fun m => m.noteInstruction_noted th pc varargs top)
    (fun m hm => hm.noteInstruction pc varargs top)
    (fun m hm _ => hm.noteInstruction pc varargs top) fun m p hout hp => ?_
  refine hquiet.deliver_inert p.function ?_
  have hguard : ¬ (m.thread th).hook.inHook = true := by
    rw [← hook, hout]
    simp
  simp only [noteInstruction, Thread.noteInstruction, if_neg hguard, putThread] at hp
  exact Hook.events_of_instructionEvents hp

/-- A session with a thread that is tracked outside its hook. -/
def tracking (base : Machine) (th : ThreadId) (own : Nat) : Session → Session → Prop :=
  Twice (Tracked base th false own own)

/-- Calls keep the thread tracked. -/
def TrackedCalls (base : Machine) (th : ThreadId) (call call' : Caller) : Prop :=
  CallsMatch (tracking base th) call call'

/-- A report of another thread calls another hook. -/
theorem report_others (hcalls : TrackedCalls base th call call') (hth : th' ≠ th)
    {note : Machine → Machine × Option PendingEvents}
    (hnoted : ∀ m, Noted th' m (note m).1 (note m).2) :
    Simulates Deep (tracking base th own) (tracking base th own)
      (fromMachine note >>= deliver call th') (fromMachine note >>= deliver call' th') := by
  have hupdate : ∀ {f : Machine → Machine},
      (∀ m, Tracked base th false own own m → Tracked base th false own own (f m)) →
      ∀ s t, tracking base th own s t → tracking base th own { s with machine := f s.machine }
        { t with machine := f t.machine } := by
    rintro f hf _ s ⟨rfl, hs⟩
    exact ⟨rfl, hf _ hs⟩
  have hall : ∀ f es, Simulates Deep (tracking base th own) (tracking base th own)
      (deliverAll call th' f es) (deliverAll call' th' f es) := by
    intro f es
    induction es with
    | nil => exact .pure ()
    | cons e es ih =>
        refine .onMachine_bind (hupdate fun m hm => hm.recordDelivery_ne hth f e) ?_
        exact (hcalls own th' f e.args).seq fun _ => ih
  have hnote : Agree (Tracked base th false own own) (fromMachine note) (fromMachine note) :=
    .fromMachine fun m hm => hm.noted_ne (hnoted m) hth
  refine (Simulates.of_leads hnote).seq fun pending => ?_
  cases pending with
  | none => exact .pure ()
  | some p =>
      refine .machine_bind fun s t hst => ?_
      obtain ⟨rfl, hs⟩ := hst
      split
      · exact (Simulates.pure ()).from_pair ⟨rfl, hs⟩
      · refine Simulates.from_pair (R := tracking base th own) ?_ ⟨rfl, hs⟩
        refine .onMachine_bind (hupdate fun m hm => hm.setThread_ne hth _) ?_
        refine (hall p.function p.events).attempt_bind (fun r => ?_) fun e he => ?_
        · exact .onMachine_bind (hupdate fun m hm => hm.setThread_ne hth _) (.resume r)
        · exact .after_onMachine (.throw he)

/-- Of its own thread a command reports instructions alone. -/
theorem notify_tracked (hquiet : QuietCalls th call call')
    (hcalls : TrackedCalls base th call call') {here : Surroundings} {c : Command}
    (hc : c.SparesCalls th) {a : Notification} (ha : c.action = .notify a) :
    Simulates Deep (tracking base th own) (tracking base th own)
      (performNotification call here (targetThread here c) a)
      (performNotification call' here (targetThread here c) a) := by
  have h : Lockstep (·.SparesCalls th) (tracking base th own) :=
    .twice (Tracked.steady base th false own own) fun _ hm => hm.bodies
  have hother : a.isInstruction = false → targetThread here c ≠ th :=
    fun hinstruction => hc.target ha hinstruction here
  apply h.performNotification
  · intro pc varargs top
    by_cases hth : targetThread here c = th
    · rw [hth]
      exact .of_leads (step_tracked hquiet pc varargs top)
    · exact report_others hcalls hth fun m => m.noteInstruction_noted _ pc varargs top
  · exact fun ho fr => report_others hcalls (hother ho) fun m => m.noteCall_noted _ fr
  · exact fun ho => report_others hcalls (hother ho) fun m => m.noteReturn_noted _
  · rintro ho d _ s ⟨rfl, hs⟩
    exact ⟨rfl, hs.setThread_ne (hother ho) _⟩

/-! ## Calls -/

/-- How many calls a thread gets by a call on another one, or on itself. -/
def callsOn (th th' : ThreadId) : Nat := if th' = th then 1 else 0

/-- A call of the thread is tracked while it runs. -/
theorem shell_tracked (hquiet : QuietCalls th call call') (hcalls : TrackedCalls base th call call')
    (own : Nat) (th' : ThreadId) :
    Shell Always (tracking base th own) (tracking base th (own + callsOn th th')) th' call call'
    where
  hasInterpreter := by
    rintro s _ ⟨rfl, -⟩
    rfl
  depth := by
    rintro s _ ⟨rfl, -⟩
    rfl
  window registers := .of_leads (Agree.fromStore (Tracked.steady base th false own own) fun _ => rfl)
  enter fr := by
    by_cases hth : th' = th
    · subst hth
      rw [callsOn, if_pos rfl]
      exact .of_leads (enter_tracked hquiet fr)
    · rw [callsOn, if_neg hth]
      exact (report_others hcalls hth fun m => m.noteCall_noted th' fr).mono
        (fun _ _ => trivial) (fun _ _ => id) fun _ _ => id
  leave := by
    by_cases hth : th' = th
    · subst hth
      rw [callsOn, if_pos rfl]
      exact .of_leads (leave_tracked hquiet)
    · rw [callsOn, if_neg hth]
      exact (report_others hcalls hth fun m => m.noteReturn_noted th').mono
        (fun _ _ _ => trivial) (fun _ _ => id) fun _ _ => id
  failed _ hnot := absurd trivial hnot
  unwind _ _ _ hnot := absurd (fun _ => trivial) hnot

/-- A strict run keeps its thread tracked, and is the run itself as far as it gets. -/
theorem companions_strict (base : Machine) (th : ThreadId) :
    Companions (·.SparesCalls th) (tracking base th) (QuietCalls th) (strict th) .none where
  lockstep own := .twice (Tracked.steady base th false own own) fun _ hm => hm.bodies
  command := by
    intro runner runner' hquiet hcalls hbody hblock own here c hc
    refine Simulates.perform_twice (Tracked.steady base th false own own) (fun _ hm => hm.bodies) hc
      (fun a ha => notify_tracked hquiet hcalls hc.self ha) (hcalls own)
      (fun here cs => hbody own here cs) fun cs => hblock own here cs
  invoke := by
    intro call call' run run' hquiet hcalls hrun own th' f args
    apply Simulates.strict fun _ hm => hm.mark
    have hlockstep : ∀ own, Lockstep (·.SparesCalls th) (tracking base th own) := fun own =>
      .twice (Tracked.steady base th false own own) fun _ hm => hm.bodies
    have halways : ∀ {own : Nat} {x y : Exec (List Value)},
        Simulates Deep (tracking base th own) (tracking base th own) x y →
        Simulates Always (tracking base th own) (tracking base th own) x y :=
      fun h => h.mono (fun _ _ => trivial) (fun _ _ => id) fun _ _ => id
    apply (hlockstep own).invoke (fun _ _ => id) (shell_tracked hquiet hcalls own th')
    · intro s t name routine _ _ hroutine
      refine halways (.runNative hroutine (fun g _ s t hst => ?_) fun label cs hcs => ?_)
      · exact .twice (Tracked.steady base th false _ _) g th' args hst
      · exact hrun _ _ cs hcs
    · intro s t p cells routine varargs window _ _ hroutine
      refine halways (.runScript hroutine (fun g _ s t hst => ?_) fun label cs hcs => ?_)
      · exact .twice (Tracked.steady base th false _ _) g th' args hst
      · exact hrun _ _ cs hcs

/-- A run in which no call fails while the thread is outside its hook: with a hook for calls and
returns that is not replaced, the events tell the depth at every delivery, and after the
outermost call there were as many returns as calls, at the depth of the start. -/
theorem events_track_depth {n : Nat} {f : FunctionId} {args vs : List Value} {s s' : Session}
    (hbodies : s.machine.store.Every (·.SparesCalls th))
    (hout : (s.machine.hook th).inHook = false)
    (hfunction : (s.machine.hook th).function.isSome)
    (hcall : (s.machine.hook th).mask.call = true) (hret : (s.machine.hook th).mask.ret = true)
    (hrun : escortedCall (strict th) n th' f args s = .ok vs s')
    (hkept : s'.machine.installations th = s.machine.installations th) :
    Exec.call n th' f args s = .ok vs s' ∧
      ∃ ds : List Delivery, s'.machine.history th = s.machine.history th ++ ds.map .delivered ∧
        Delivery.TellDepth (s.machine.depth th) ds ∧
        Delivery.callCount ds = Delivery.returnCount ds ∧
        s'.machine.depth th = s.machine.depth th := by
  have hplain : ∀ n, escortedCall .none (n + 0) = Exec.call n :=
    fun n => congrArg Runner.call (escortedRunner_none n)
  have hquiet : ∀ n, QuietCalls th (escortedCall (strict th) n) (escortedCall .none (n + 0)) := by
    intro n
    rw [hplain]
    exact quietCalls_strict th n
  have hstart : tracking s.machine th 0 s s := ⟨rfl, .refl hbodies hout hfunction hcall hret⟩
  have hcalls := ((companions_strict s.machine th).runs hquiet n).1 0 th' f args s s hstart
  rw [hplain] at hcalls
  obtain ⟨_, _, herror, _⟩ | ⟨houtcome, hsame, hfinal⟩ := hcalls
  · cases hrun.symm.trans herror
  rw [outcome_of_ok hrun] at houtcome
  rw [final_of_ok hrun] at hsame hfinal
  refine ⟨hsame ▸ apply_of_outcome_ok houtcome.symm, ?_⟩
  obtain ⟨rs, hrs, hbalanced⟩ := hfinal.history
  have hnone : rs.filterMap (·.installation?) = [] := by
    have hmore := installations_of_history hrs
    rw [hkept] at hmore
    exact List.self_eq_append_right.mp hmore
  obtain ⟨ds, rfl, hb⟩ := hbalanced hnone
  exact ⟨ds, hrs, hb.tell, hb.count, hb.depth⟩

/-- A thread with a hook that records calls and returns, a native function that calls a script
function, and the script function, which executes one instruction. -/
def nestedSession : Session :=
  let plain : Modifiers := ⟨none, none, none, false⟩
  let hook : FunctionObject := ⟨.native "hook", .scripted "hook" [.mk plain .args]⟩
  let inner : FunctionObject :=
    ⟨.script ⟨none, 0, 0, 0, false, 0, #[], #[], #[], [], #[]⟩ #[],
      .scripted "inner" [.mk plain (.notify (.instruction 0 0 none))]⟩
  let outer : FunctionObject :=
    ⟨.native "outer", .scripted "outer" [.mk plain (.call (.value (.function ⟨1⟩)) [])]⟩
  let start := Session.start ⟨[], .default, false, true⟩
  { start with machine := { start.machine with
      store := { start.machine.store with functions := #[hook, inner, outer] }
      threads := #[⟨none, ⟨some ⟨0⟩, ⟨true, false, true⟩, 0, 0, false, none⟩⟩] } }

theorem nestedSession_spares :
    nestedSession.machine.store.Every (·.SparesCalls mainThread) := by
  apply Store.Every.of_mem
  intro o ho
  simp only [nestedSession, List.mem_toArray, List.mem_cons, List.not_mem_nil, or_false] at ho
  obtain rfl | rfl | rfl := ho
  · intro c hc
    rw [List.mem_singleton.mp hc]
    exact .of_inner_nil trivial rfl
  · intro c hc
    rw [List.mem_singleton.mp hc]
    exact .of_inner_nil (.inl rfl) rfl
  · intro c hc
    rw [List.mem_singleton.mp hc]
    exact .of_inner_nil trivial rfl

/-- The two calls inside each other are reported as two calls and then two returns. -/
theorem nested_calls_balance :
    ∃ s', Exec.call 5 mainThread ⟨2⟩ [] nestedSession = .ok [] s' ∧
      ∃ ds : List Delivery,
        s'.machine.history mainThread = nestedSession.machine.history mainThread ++
          ds.map .delivered ∧
        Delivery.TellDepth 0 ds ∧ Delivery.callCount ds = Delivery.returnCount ds ∧
        s'.machine.depth mainThread = 0 ∧ ds.map (·.event) = [.call, .call, .ret, .ret] := by
  have hreturns : ((escortedCall (strict mainThread) 5 mainThread ⟨2⟩ []).outcome
      nestedSession).toOption = some [] := by decide +kernel
  have hrun := apply_of_toOption_outcome hreturns
  obtain ⟨hcall, ds, hhistory, htell, hcount, hdepth⟩ := events_track_depth
    nestedSession_spares (by decide +kernel) (by decide +kernel) (by decide +kernel)
    (by decide +kernel) hrun (by decide +kernel)
  refine ⟨_, hcall, ds, hhistory, htell, hcount, hdepth, ?_⟩
  have hevents : (((escortedCall (strict mainThread) 5 mainThread ⟨2⟩ []).final
      nestedSession).machine.deliveries mainThread).map (·.2) = [.call, .call, .ret, .ret] := by
    decide +kernel
  rw [← hevents, deliveries_of_history hhistory]
  simp [deliveries, history, nestedSession, Session.start, Machine.new, HookRecord.delivery?,
    Function.comp_def, List.filterMap_map]

end Exec

end ScriptDebug
