import ScriptDebug.Proofs.Hook.Mark
import ScriptDebug.Proofs.Hook.Quiet

/-!
# Hooks never nest

While the hook of a thread runs, the thread stays marked, its call stack stays as it is
and nothing but the events at hand is delivered, at every moment of whatever the hook
does.  Afterwards the mark is gone, so that between the commands of a session no thread
is marked.

## Implementation notes

What holds at every moment is put as a test (`DuringHook`): the run is the same as the
run under watch of that test.
-/

namespace ScriptDebug

/-- A command that does not drop calls of a thread by fiat. -/
def Command.Spares (th : ThreadId) (c : Command) : Prop :=
  match c.action with
  | .notify (.unwind _) => ∃ th', c.modifiers.thread = some th' ∧ th' ≠ th
  | _ => True

namespace Machine

/-- The hooks that a thread got since an earlier machine. -/
def installedSince (base m : Machine) (th : ThreadId) : List Hook :=
  (m.installations th).drop (base.installations th).length

/-- A moment of delivering pending events that came up in machine `base`: the thread is
marked, its calls are as they were, none but the first of the events have been delivered
and its hook differs only as it was replaced since. -/
structure DuringHook (base : Machine) (th : ThreadId) (p : PendingEvents) (m : Machine) :
    Prop where
  inHook : (m.hook th).inHook = true
  stack : (m.thread th).stack = (base.thread th).stack
  deliveries : ∃ k, k ≤ p.events.length ∧
    m.deliveries th = base.deliveries th ++ (p.events.take k).map (p.function, ·)
  installations : base.installations th <+: m.installations th
  hook : m.hook th =
    { (base.installedSince m th).getLast?.getD (base.hook th) with inHook := true }

instance (base : Machine) (th : ThreadId) (p : PendingEvents) :
    DecidablePred (DuringHook base th p) := fun m =>
  decidable_of_iff
    ((m.hook th).inHook = true ∧ (m.thread th).stack = (base.thread th).stack ∧
      (∃ k, k ≤ p.events.length ∧
        m.deliveries th = base.deliveries th ++ (p.events.take k).map (p.function, ·)) ∧
      base.installations th <+: m.installations th ∧
      m.hook th = { (base.installedSince m th).getLast?.getD (base.hook th) with inHook := true })
    ⟨fun ⟨h₁, h₂, h₃, h₄, h₅⟩ => ⟨h₁, h₂, h₃, h₄, h₅⟩, fun ⟨h₁, h₂, h₃, h₄, h₅⟩ => ⟨h₁, h₂, h₃, h₄, h₅⟩⟩

/-- Sparing commands leave the call stack of a thread inside its hook alone, and so do
failed calls, since they were made at the same depth. -/
theorem keepsStack_spares (th : ThreadId) (stack : Option CallStack) :
    KeepsStack (Command.Spares th) th (· = stack) where
  unwound t t' ht ht' := by
    have hdepth : ¬ t.depth < t'.depth := by
      simp only [Thread.depth, Thread.calls, ht, ht']
      omega
    rw [Thread.unwindTo, if_neg hdepth]
    exact ht'
  unwind hc ha hth _ := by
    simp only [Command.Spares, ha] at hc
    obtain ⟨th', hmod, hne⟩ := hc
    rw [Exec.targetThread, hmod] at hth
    exact absurd hth hne

/-- A moment after the delivery of some first events has begun. -/
structure Stage (base : Machine) (th : ThreadId) (f : FunctionId) (begun : List HookEvent)
    (m : Machine) : Prop where
  bodies : m.store.Every (Command.Spares th)
  inHook : (m.hook th).inHook = true
  stack : (m.thread th).stack = (base.thread th).stack
  deliveries : m.deliveries th = base.deliveries th ++ begun.map (f, ·)
  hook : ∃ hooks : List Hook, m.installations th = base.installations th ++ hooks ∧
    m.hook th = { hooks.getLast?.getD (base.hook th) with inHook := true }

namespace Stage

variable {base m m' : Machine} {th : ThreadId} {f : FunctionId} {begun : List HookEvent}

/-- The moment at which the mark is set. -/
theorem start (hbodies : base.store.Every (Command.Spares th))
    (hth : (base.thread? th).isSome) : Stage base th f [] (base.setInHook th true) where
  bodies := hbodies
  inHook := by rw [hook_setInHook_self hth]
  stack := stack_setInHook base th true th
  deliveries := (List.append_nil _).symm
  hook := ⟨[], (List.append_nil _).symm, hook_setInHook_self hth true⟩

theorem recordDelivery (h : Stage base th f begun m) (e : HookEvent) :
    Stage base th f (begun ++ [e]) (m.recordDelivery th f e) where
  bodies := h.bodies
  inHook := h.inHook
  stack := h.stack
  deliveries := by
    rw [deliveries_of_history (history_recordDelivery_self m th f e), h.deliveries,
      List.map_append, List.append_assoc]
    rfl
  hook := by
    obtain ⟨hooks, hinstallations, hhook⟩ := h.hook
    refine ⟨hooks, ?_, hhook⟩
    rw [installations_of_history (history_recordDelivery_self m th f e), hinstallations]
    exact List.append_nil _

/-- New hooks do not end the stage. -/
theorem quiet (h : Stage base th f begun m)
    (hq : Quiet (Command.Spares th) th (· = (base.thread th).stack) m m') :
    Stage base th f begun m' := by
  obtain ⟨hooks, hinstallations, hhook⟩ := h.hook
  obtain ⟨hooks', hhistory, hhook'⟩ := hq.history
  refine ⟨hq.bodies, hq.inHook, hq.stack, ?_, hooks ++ hooks', ?_, ?_⟩
  · rw [deliveries_of_history hhistory, HookRecord.filterMap_delivery?_installed,
      List.append_nil, h.deliveries]
  · rw [installations_of_history hhistory, HookRecord.filterMap_installation?_installed,
      hinstallations, List.append_assoc]
  · have hin := hq.inHook
    cases hlast : hooks'.getLast? with
    | none =>
        rw [hlast] at hhook'
        rw [List.getLast?_eq_none_iff.mp hlast, List.append_nil, hhook']
        exact hhook
    | some h' =>
        rw [hlast] at hhook'
        rw [List.getLast?_append, hlast, ← hin, hhook']
        rfl

theorem duringHook {p : PendingEvents} {rest : List HookEvent}
    (h : Stage base th p.function begun m) (hp : p.events = begun ++ rest) :
    DuringHook base th p m where
  inHook := h.inHook
  stack := h.stack
  deliveries := ⟨begun.length, by simp [hp], by simpa [hp] using h.deliveries⟩
  installations := by
    obtain ⟨hooks, hinstallations, -⟩ := h.hook
    exact ⟨hooks, hinstallations.symm⟩
  hook := by
    obtain ⟨hooks, hinstallations, hhook⟩ := h.hook
    rw [installedSince, hinstallations, List.drop_left]
    exact hhook

end Stage

/-- Delivering the events that remain, stage by stage. -/
theorem Stage.deliverAll {base : Machine} {th : ThreadId} {p : PendingEvents} (mark : LogEntry)
    (n : Nat) {begun rest : List HookEvent} (hp : p.events = begun ++ rest) :
    Exec.Leads (Stage base th p.function begun) (DuringHook base th p)
      (Exec.deliverAll (Exec.call n) th p.function rest)
      (Exec.deliverAll (Exec.watchedCall (DuringHook base th p) mark n) th p.function rest) := by
  induction rest generalizing begun with
  | nil =>
      exact (Exec.Agree.pure ()).mono (fun _ => id) fun m hm => hm.duringHook hp
  | cons e rest ih =>
      have hp' : p.events = (begun ++ [e]) ++ rest := by simp [hp]
      apply Exec.Leads.onMachine_bind (fun m hm => hm.recordDelivery e)
      refine .bind (J := Stage base th p.function (begun ++ [e])) ?_ (fun _ => ih hp')
        fun m hm => hm.duringHook hp'
      intro s hs
      have hkeeps := keepsStack_spares th (base.thread th).stack
      have hrun := (Quiet.reportInvariant hkeeps s.machine).runInvariant.watched mark
        (fun _ m' hq => (hs.quiet hq).duringHook hp') n
      obtain ⟨heq, hquiet⟩ := hrun.1 () th p.function e.args s (.refl hs.bodies hs.inHook hs.stack)
      exact ⟨heq, hs.quiet hquiet⟩

end Machine

/-- While the events of a thread are delivered, every moment is as `DuringHook` tells,
and afterwards the mark is removed and the call stack is the same; between the commands
of a session no thread is marked. -/
theorem hooks_never_nest (mark : LogEntry) (n : Nat) :
    (∀ (th : ThreadId) (p : PendingEvents) (s : Session),
      s.machine.store.Every (Command.Spares th) → (s.machine.thread? th).isSome →
      (s.machine.hook th).inHook = false →
        let delivered := Exec.deliver (Exec.call n) th (some p)
        let watched :=
          Exec.deliver (Exec.watchedCall (Machine.DuringHook s.machine th p) mark n) th (some p)
        let after := (delivered.final s).machine
        watched s = delivered s ∧ (after.hook th).inHook = false ∧
          (after.thread th).stack = (s.machine.thread th).stack) ∧
    ∀ (setup : SessionSetup) (cs : List Command) (reports : List StepReport) (s : Session),
      (Session.start setup).run cs = some (reports, s) →
        ∀ th, (s.machine.hook th).inHook = false := by
  constructor
  · intro th p s hbodies hth hout
    have hdeliver : Exec.Leads (· = s.machine)
        (fun m => (m.hook th).inHook = false ∧ (m.thread th).stack = (s.machine.thread th).stack)
        (Exec.deliver (Exec.call n) th (some p))
        (Exec.deliver (Exec.watchedCall (Machine.DuringHook s.machine th p) mark n) th
          (some p)) := by
      apply Exec.Leads.whileInHook
      · rintro m rfl
        exact ⟨hout, rfl⟩
      · rintro m rfl -
        apply (Machine.Stage.deliverAll mark n (List.nil_append p.events).symm).mono
        · rintro m rfl
          exact .start hbodies hth
        · intro m hm
          constructor
          · exact Machine.inHook_setInHook_false m th
          · rw [Machine.stack_setInHook]
            exact hm.stack
    obtain ⟨heq, hinHook, hstack⟩ := hdeliver s rfl
    exact ⟨heq.symm, hinHook, hstack⟩
  · intro setup cs reports s hrun th
    rw [Session.marks_run hrun th, Session.marks_start setup th]

/-- A thread in a call, with a hook that replaces itself, calls another function, reports
a call and fails. -/
def reconfiguringSession : Session :=
  let plain : Modifiers := ⟨none, none, none, false⟩
  let hook : FunctionObject :=
    ⟨.native "hook", .scripted "hook"
      [.mk plain (.inspect (.setHook (.value (.function ⟨1⟩)) "l" 2)),
        .mk plain (.call (.value (.function ⟨1⟩)) []),
        .mk plain (.notify (.call (.value (.function ⟨1⟩)))),
        .mk plain (.raise (.runtime "in the hook"))]⟩
  let other : FunctionObject := ⟨.native "other", .scripted "other" []⟩
  let installed : Hook := ⟨some ⟨0⟩, ⟨true, false, false⟩, 0, 0, false, none⟩
  let start := Session.start ⟨[], .default, false, true⟩
  { start with machine := { start.machine with
      store := { start.machine.store with functions := #[hook, other] }
      threads := #[⟨some (CallStack.empty.push (.bare ⟨1⟩)), installed⟩] } }

/-- A session that gives its main thread a failing hook and makes a call. -/
def failingHookCommands : List Command :=
  let plain : Modifiers := ⟨none, none, none, false⟩
  [.mk plain (.newNative "h" "h" [.mk plain (.raise (.runtime "in the hook"))]),
    .mk plain (.inspect (.setHook (.function "h") "cr" 0)),
    .mk plain (.call (.function "h") [])]

/-- The hook that replaces itself is watched, and the one that fails is left in the end. -/
theorem reconfiguring_hook_never_nests :
    let s := reconfiguringSession
    let th := Machine.mainThread
    let p : PendingEvents := ⟨⟨0⟩, [.call]⟩
    let delivered := Exec.deliver (Exec.call 6) th (some p)
    let watched :=
      Exec.deliver (Exec.watchedCall (Machine.DuringHook s.machine th p) default 6) th (some p)
    let after := (delivered.final s).machine
    (s.machine.store.Every (Command.Spares th) ∧ (s.machine.thread? th).isSome = true ∧
      (s.machine.hook th).inHook = false) ∧
      (watched s = delivered s ∧ (after.hook th).inHook = false ∧
        (after.thread th).stack = (s.machine.thread th).stack) ∧
      ∃ reports s', (Session.start ⟨[], .default, false, true⟩).run failingHookCommands =
        some (reports, s') ∧ (s'.machine.hook th).inHook = false := by
  have hbodies : reconfiguringSession.machine.store.Every
      (Command.Spares Machine.mainThread) := by
    apply Store.Every.of_mem
    intro o ho
    simp only [reconfiguringSession, List.mem_toArray, List.mem_cons, List.not_mem_nil,
      or_false] at ho
    obtain rfl | rfl := ho
    · intro c hc
      simp only [List.mem_cons, List.not_mem_nil, or_false] at hc
      obtain rfl | rfl | rfl | rfl := hc
      all_goals exact .of_inner_nil trivial rfl
    · intro c hc
      simp at hc
  have hrun : ((Session.start ⟨[], .default, false, true⟩).run failingHookCommands).isSome := by
    decide +kernel
  obtain ⟨⟨reports, s'⟩, hrun⟩ := Option.isSome_iff_exists.mp hrun
  exact ⟨⟨hbodies, rfl, rfl⟩,
    (hooks_never_nest default 6).1 Machine.mainThread ⟨⟨0⟩, [.call]⟩ reconfiguringSession
      hbodies rfl rfl,
    reports, s', hrun,
    (hooks_never_nest default 6).2 _ failingHookCommands reports s' hrun Machine.mainThread⟩

end ScriptDebug
