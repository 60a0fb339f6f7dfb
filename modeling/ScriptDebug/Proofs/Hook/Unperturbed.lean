import ScriptDebug.Proofs.Hook.Mark
import ScriptDebug.Proofs.Hook.Observed

/-!
# Observers do not perturb what they observe

Two runs of one program side by side: one without hooks, and one with hooks that do nothing but
record, where instructions may be traced.  As long as the program keeps away from hooks, both
do the same, and work on the same execution at every call and every command.

## Implementation notes

What a run works on is watched by an escort, which notes what it sees outside hooks in the log.
Keeping away from hooks is a matter of the run: an escort ends it when a function of the library
or a command reads or replaces hooks, in a way that nothing catches.
-/

namespace ScriptDebug

/-- A function of the library that reads or replaces hooks. -/
def Store.isHookFunction (s : Store) (f : FunctionId) : Bool :=
  match s.function? f with
  | some ⟨_, .library g⟩ => g.isAboutHooks
  | _ => false

/-- Actions that read or replace hooks, or show whether instructions are traced. -/
def Action.isAboutHooks : Action → Bool
  | .object .describeMachine => true
  | .inspect a => a.isAboutHooks
  | _ => false

/-- A command that reads or replaces hooks without a call. -/
def Session.isAboutHooks (s : Session) (here : Surroundings) (c : Command) : Bool :=
  c.action.isAboutHooks ||
    match c.action with
    | .callDirectly f _ _ =>
      match s.evalTerm here f with
      | .function f => s.machine.store.isHookFunction f
      | _ => false
    | _ => false

/-- Note in the log what a session works on, unless a hook is running. -/
def Session.seen (view : Execution → Option LogEntry) (s : Session) : Session :=
  if s.machine.insideHook then s
  else
    match view s.machine.execution with
    | some e => { s with log := s.log.push { e with inHook := false } }
    | none => s

/-- Nothing but the log changes. -/
theorem Session.seen_eq (view : Execution → Option LogEntry) (s : Session) :
    ∃ log, s.seen view = { s with log } := by
  unfold seen
  split
  · exact ⟨_, rfl⟩
  · split
    · exact ⟨_, rfl⟩
    · exact ⟨_, rfl⟩

/-- Sessions of which one observes the other look the same. -/
theorem Session.Observed.seen {hooked logged : Prop} {s t : Session}
    (h : Observed hooked logged s t) {view view' : Execution → Option LogEntry}
    (hview : logged → view' = view) : Observed hooked logged (s.seen view) (t.seen view') := by
  by_cases hlogged : logged
  · rw [hview hlogged]
    have hout := Machine.insideHook_of_outside h.machine.outside
    have hout' := Machine.insideHook_of_outside h.machine.outside'
    simp only [Session.seen, hout, hout', h.machine.execution, Bool.false_eq_true, if_false]
    split
    · exact h.push _
    · exact h
  · obtain ⟨log, hs⟩ := s.seen_eq view
    obtain ⟨log', ht⟩ := t.seen_eq view'
    rw [hs, ht]
    exact { h with outsideLog := fun hlogged' => absurd hlogged' hlogged }

/-- Whether a command is about hooks shows in both sessions. -/
theorem Session.Observed.isAboutHooks {hooked logged : Prop} {s t : Session}
    (h : Observed hooked logged s t) (here : Surroundings) (c : Command) :
    t.isAboutHooks here c = s.isAboutHooks here c := by
  have hterm := (Exec.observed_lockstep hooked logged).term h here
  simp only [Session.isAboutHooks, hterm, h.machine.store]

namespace Exec

open Session

variable {α : Type} {E : Halt → Prop} {hooked logged : Prop} {here : Surroundings} {th : ThreadId}
  {call call' : Caller} {s t : Session}

/-! ## Reports -/

/-- A report does the same in both sessions, if its notification does. -/
theorem report_observed (hcall : hooked → LetsRecord call')
    {note : Machine → Machine × Option PendingEvents}
    (hnoted : ∀ m, Machine.Noted th m (note m).1 (note m).2)
    (hnote : ∀ {m m'}, m.SameExecution m' → (note m).1.SameExecution (note m').1) :
    Simulates E (Observed hooked logged) (Observed hooked logged)
      (fromMachine note >>= deliver call th) (fromMachine note >>= deliver call' th) := by
  refine .of_each fun s t hst => ?_
  have hafter := hst.noted (hnote hst.machine) (hnoted s.machine) (hnoted t.machine)
  have hnothing : (note s.machine).2 = none := by
    cases hp : (note s.machine).2 with
    | none => rfl
    | some p =>
        have hfunction := ((hnoted s.machine).pending p hp).function
        exact absurd ((hafter.bare th).symm.trans hfunction) (by simp)
  have hleft : (fromMachine note >>= deliver call th) s =
      .ok () { s with machine := (note s.machine).1 } := by
    change deliver call th (note s.machine).2 { s with machine := (note s.machine).1 } = _
    rw [hnothing]
    rfl
  cases hp : (note t.machine).2 with
  | none =>
      refine .of_ok hleft ?_ hafter
      change deliver call' th (note t.machine).2 { t with machine := (note t.machine).1 } = _
      rw [hp]
      rfl
  | some p =>
      have hcalls := (hnoted t.machine).pending p hp
      obtain ⟨hhooked, hrecords⟩ := hafter.recorders th p.function hcalls.function
      let noted : Session := { t with machine := (note t.machine).1 }
      have hpending : ∀ p', some p = some p' →
          (noted.machine.hook th).Calls p' ∧ noted.machine.store.Records p'.function := by
        intro p' hp'
        cases hp'
        exact ⟨hcalls, hrecords⟩
      obtain ⟨t', hdeliver, hrecorded⟩ := deliver_recorded (hcall hhooked) hpending
      refine .of_ok hleft ?_ ((hafter.handOut th (some p)).recorded hrecorded)
      change deliver call' th (note t.machine).2 noted = _
      rw [hp, hdeliver]

theorem enter_observed (hcall : hooked → LetsRecord call') (fr : Frame) :
    Simulates E (Observed hooked logged) (Observed hooked logged) (enter call th fr)
      (enter call' th fr) :=
  report_observed hcall (fun m => m.noteCall_noted th fr) fun h => h.noteCall th fr

theorem leave_observed (hcall : hooked → LetsRecord call') :
    Simulates E (Observed hooked logged) (Observed hooked logged) (leave call th)
      (leave call' th) :=
  report_observed hcall (fun m => m.noteReturn_noted th) fun h => h.noteReturn th

theorem step_observed (hcall : hooked → LetsRecord call') (pc : Nat) (varargs : List Value)
    (top : Nat) :
    Simulates E (Observed hooked logged) (Observed hooked logged) (step call th pc varargs top)
      (step call' th pc varargs top) :=
  report_observed hcall (fun m => m.noteInstruction_noted th pc varargs top) fun h =>
    h.noteInstruction th pc varargs top

theorem unwindTo_observed (th : ThreadId) (d : Nat) (hst : Observed hooked logged s t) :
    Observed hooked logged { s with machine := s.machine.unwindTo th d }
      { t with machine := t.machine.unwindTo th d } := by
  have hfunction : ∀ (m : Machine) th', ((m.unwindTo th d).hook th').function =
      (m.hook th').function :=
    fun m th' => congrArg (·.function) (m.hook_unwindTo th d th')
  exact hst.onMachines (hst.machine.unwindTo th d) (.refl _) (hfunction _) (hfunction _)

/-- Notifications do the same in both sessions. -/
theorem notify_observed (hcall : hooked → LetsRecord call') (a : Notification) :
    Simulates E (Observed hooked logged) (Observed hooked logged)
      (performNotification call here th a) (performNotification call' here th a) :=
  (observed_lockstep hooked logged).performNotification a (step_observed hcall)
    (fun _ => enter_observed hcall) (fun _ => leave_observed hcall)
    fun _ d _ _ hst => unwindTo_observed th d hst

/-- What stands around a routine does the same in both sessions. -/
theorem shell_observed (hcall : hooked → LetsRecord call') (th : ThreadId) :
    Shell Deep (Observed hooked logged) (Observed hooked logged) th call call' where
  hasInterpreter hst := hst.machine.hasInterpreter
  depth hst := hst.machine.depth th
  window _ := .newObject fun _ => .of_functions rfl
  enter fr := enter_observed hcall fr
  leave := leave_observed hcall
  failed _ _ _ _ := id
  unwind d _ _ _ hst := unwindTo_observed th d hst

/-! ## Watching a run -/

/-- Note in the log what a run works on when a computation begins and when it ends. -/
def glanced (view : Execution → Option LogEntry) (x : Exec α) : Exec α := do
  modify (·.seen view)
  let result ← attempt x
  modify (·.seen view)
  resume result

/-- End a run that must not get any further. -/
def refusing (refused : Session → Bool) (x : Exec α) : Exec α :=
  fun s => if refused s then .error .tooDeep s else x s

/-- Look at what calls and commands work on, and refuse those that are about hooks if the run is
to keep away from them. -/
def watching (keepsAway : Bool) (view : Execution → Option LogEntry) : Escort where
  call _ f x := glanced view (refusing (fun s => keepsAway && s.machine.store.isHookFunction f) x)
  command here c x := glanced view (refusing (fun s => keepsAway && s.isAboutHooks here c) x)

/-- Nothing is noted. -/
def unseen : Execution → Option LogEntry := fun _ => none

theorem glanced_unseen (x : Exec α) : glanced unseen x = x := by
  have hseen : (fun s : Session => s.seen unseen) = id := by
    funext s
    simp only [Session.seen, unseen, ite_self, id]
  rw [glanced, hseen]
  exact attempt_resume x

theorem refusing_false (x : Exec α) : refusing (fun _ => false) x = x := rfl

/-- Whoever only looks, without noting anything, does nothing. -/
theorem watching_unseen : watching false unseen = .none := by
  simp only [watching, Bool.false_and, refusing_false, glanced_unseen]
  rfl

/-- Nothing is noted while a hook is running. -/
theorem glanced_of_inside {view : Execution → Option LogEntry} {x : Exec α} {a : α}
    {s s' : Session} (hin : s.machine.insideHook = true) (hin' : s'.machine.insideHook = true)
    (hx : x s = .ok a s') : glanced view x s = .ok a s' := by
  have hseen : ∀ s : Session, s.machine.insideHook = true →
      (modify (·.seen view) : Exec Unit) s = .ok () s := by
    intro s hs
    change EStateM.Result.ok () (s.seen view) = _
    rw [Session.seen, if_pos hs]
  rw [glanced, bind_eq_of_ok (hseen s hin), bind_eq_of_ok (attempt_eq_of_ok hx),
    bind_eq_of_ok (hseen s' hin')]
  rfl

theorem watching_discreet (view : Execution → Option LogEntry) :
    (watching false view).Discreet where
  call _ _ _ _ _ _ hin hin' hx := glanced_of_inside hin hin' hx
  command _ _ _ _ _ _ hin hin' hx := glanced_of_inside hin hin' hx

/-! ## Two watched runs -/

section Watched

variable {view view' : Execution → Option LogEntry}

theorem Simulates.glanced {x y : Exec α} (hview : logged → view' = view)
    (h : Simulates Deep (Observed hooked logged) (Observed hooked logged) x y) :
    Simulates Deep (Observed hooked logged) (Observed hooked logged) (Exec.glanced view x)
      (Exec.glanced view' y) := by
  have hseen : ∀ E, Simulates E (Observed hooked logged) (Observed hooked logged)
      (modify (·.seen view)) (modify (·.seen view')) :=
    fun E => .session fun s t hst => hst.seen hview
  refine (hseen Deep).seq fun _ => h.attempt_bind (fun r => ?_) fun e he => ?_
  · exact (hseen Deep).seq fun _ => .resume r
  · exact fun s => .bind_of_ok rfl (Sinks.resume he _)

/-- What the first run refuses is left out of account, and so need not be considered. -/
theorem Simulates.refusing {R R' : Session → Session → Prop} {refused refused' : Session → Bool}
    {x y : Exec α} (hrefused : ∀ s t, R s t → refused' t = true → refused s = true)
    (h : Simulates Deep (fun s t => R s t ∧ refused s = false) R' x y) :
    Simulates Deep R R' (Exec.refusing refused x) (Exec.refusing refused' y) := by
  intro s t hst
  cases hs : refused s with
  | true => exact .inl ⟨.tooDeep, s, if_pos hs, rfl⟩
  | false =>
      have ht : ¬ refused' t = true := fun ht => by simp [hrefused s t hst ht] at hs
      have hx : Exec.refusing refused x s = x s := if_neg (by simp [hs])
      have hy : Exec.refusing refused' y t = y t := if_neg ht
      simp only [Halts, outcome, final, hx, hy]
      exact h s t ⟨hst, hs⟩

theorem function_of_other {f : Term} {v : Value} (h : s.evalTerm here f = v)
    (hv : ∀ g, v ≠ .function g) :
    function here f s =
      .error (.raised (.runtime ("attempt to call a " ++ v.typeName ++ " value"))) s := by
  rw [function, bind_eq_of_ok (x := value here f) rfl, h]
  split
  · exact absurd rfl (hv _)
  · rfl

/-- A native function runs without a call in both sessions, if it is not about hooks. -/
theorem direct_observed {runner runner' : Runner} {f : Term} {args : List Term} {id : ThreadId}
    (hst : Observed hooked logged s t)
    (hf : ∀ g, s.evalTerm here f = .function g → s.machine.store.isHookFunction g = false)
    (hbody : ∀ here cs, Simulates Deep (Observed hooked logged) (Observed hooked logged)
      (runner.body here cs) (runner'.body here cs)) :
    Simulates Deep (Pair s t) (Observed hooked logged)
      (performAction runner here th (.callDirectly f args id))
      (performAction runner' here th (.callDirectly f args id)) := by
  have h := observed_lockstep hooked logged
  have hterms : t.evalTerm here = s.evalTerm here := funext (h.term hst here)
  by_cases hfunction : ∃ g, s.evalTerm here f = .function g
  · obtain ⟨g, hg⟩ := hfunction
    have hvalues : values here args t = .ok (args.map (s.evalTerm here)) t := by
      rw [← hterms]
      rfl
    refine .bind_of_ok (function_of_function hg) (function_of_function (hterms ▸ hg)) ?_
    refine .bind_of_ok (x := values here args) rfl hvalues ?_
    refine h.direct hst (fun name g' hlibrary => ?_) fun label cs _ => hbody _ cs
    refine libraryAlike_observed ?_ id _ hst
    have hnot := hf g hg
    rwa [Store.isHookFunction, hlibrary] at hnot
  · have hother : ∀ g, s.evalTerm here f ≠ .function g := fun g hg => hfunction ⟨g, hg⟩
    exact .of_error (bind_eq_of_error (function_of_other rfl hother) _)
      (bind_eq_of_error (function_of_other (congrFun hterms f) hother) _) hst

/-- A watched run that keeps away from hooks, beside one that may be observed. -/
theorem watching_companions (keepsAway : Bool) (hview : logged → view' = view) :
    Companions (fun _ => True) (fun _ : Unit => Observed hooked logged)
      (fun _ call' => hooked → LetsRecord call') (watching true view) (watching keepsAway view')
    where
  lockstep _ := observed_lockstep hooked logged
  command := by
    intro runner runner' hrecord hcalls hbody hblock i here c _
    have h := observed_lockstep hooked logged
    refine .glanced hview (.refusing (fun s t hst ht => ?_) ?_)
    · rw [Bool.true_and, ← hst.isAboutHooks]
      exact (Bool.and_eq_true_iff.mp ht).2
    · apply h.perform (fun _ _ hst => hst.1)
      by_cases habout : c.action.isAboutHooks = true
      · rintro s t ⟨-, hnot⟩
        simp [Session.isAboutHooks, habout] at hnot
      · apply h.performAction (fun _ _ hst => hst.1) (.of_forall (fun _ => trivial) c)
        · intro a ha
          refine performObject_observed here fun hdescribe => habout ?_
          rw [ha, hdescribe]
          rfl
        · intro a ha
          refine performInspection_observed here ?_
          rw [ha] at habout
          exact Bool.eq_false_iff.mpr habout
        · exact fun a _ => notify_observed hrecord a
        · exact hcalls i
        · intro f args id ha
          refine .of_each fun s t ⟨hst, hnot⟩ => ?_
          rw [ha]
          refine direct_observed hst (fun g hg => ?_) fun here cs => hbody i here cs fun d _ =>
            .of_forall (fun _ => trivial) d
          simpa [Session.isAboutHooks, Action.isAboutHooks, ha, hg] using hnot
        · exact fun cs hcs => hblock i here cs hcs
  invoke := by
    intro call call' run run' hrecord hcalls hrun i th f args
    have h := observed_lockstep hooked logged
    refine .glanced hview (.refusing (fun s t hst ht => ?_) ?_)
    · rw [Bool.true_and, ← hst.machine.store]
      exact (Bool.and_eq_true_iff.mp ht).2
    · apply h.invoke (fun _ _ hst => hst.1) (shell_observed hrecord th)
      · rintro s t name routine ⟨-, hnot⟩ hf hroutine
        rw [Bool.true_and, Store.isHookFunction, hf] at hnot
        refine .runNative hroutine (fun g hg s t hst => ?_) fun label cs hcs => hrun i _ cs hcs
        rw [hg] at hnot
        exact libraryAlike_observed hnot th args hst
      · rintro s t p cells routine varargs window ⟨-, hnot⟩ hf hroutine
        rw [Bool.true_and, Store.isHookFunction, hf] at hnot
        refine .runScript hroutine (fun g hg s t hst => ?_) fun label cs hcs => hrun i _ cs hcs
        rw [hg] at hnot
        exact libraryAlike_observed hnot th args hst

/-- Whole watched runs side by side. -/
theorem watching_runs (hooked logged : Prop) (view view' : Execution → Option LogEntry)
    (keepsAway : Bool) (n d : Nat) (hview : logged → view' = view)
    (hhooked : hooked → keepsAway = false ∧ 2 ≤ d) :
    (∀ th f args, Simulates Deep (Observed hooked logged) (Observed hooked logged)
      (escortedCall (watching true view) n th f args)
      (escortedCall (watching keepsAway view') (n + d) th f args)) ∧
    ∀ here cs, Simulates Deep (Observed hooked logged) (Observed hooked logged)
      (escortedBlock (watching true view) n here cs)
      (escortedBlock (watching keepsAway view') (n + d) here cs) := by
  have hrecord : ∀ n, hooked → LetsRecord (escortedCall (watching keepsAway view') (n + d)) := by
    intro n hh
    obtain ⟨rfl, hd⟩ := hhooked hh
    obtain ⟨d, rfl⟩ := Nat.exists_eq_add_of_le' hd
    exact escortedCall_letsRecord (watching_discreet view') (n + d)
  obtain ⟨hcall, -, hblock⟩ := (watching_companions keepsAway hview).runs hrecord n
  exact ⟨hcall (), fun here cs => hblock () here cs fun c _ => .of_forall (fun _ => trivial) c⟩

end Watched

/-! ## Whole runs -/

/-- A run that keeps away from hooks, and nests no deeper than is allowed for. -/
def KeepsAway (run : Escort → Exec α) (s : Session) : Prop :=
  (run (watching true unseen)).outcome s ≠ .error .tooDeep

/-- Two computations end alike, in sessions of which the second one observes the first one. -/
def Unperturbed (x y : Exec α) (s t : Session) : Prop :=
  x.outcome s = y.outcome t ∧ Observed True True (x.final s) (y.final t)

/-- Watched runs are compared by way of one that keeps away from hooks. -/
theorem Unperturbed.of_watching {view : Execution → Option LogEntry} {x : Escort → Exec α}
    {y : Exec α} (hst : Observed True True s t) (haway : KeepsAway x s)
    (hseen : Simulates Deep (Observed False False) (Observed False False)
      (x (watching true unseen)) (x (watching true view)))
    (hplain : Simulates Deep (Observed False True) (Observed False True)
      (x (watching true view)) (x (watching false view)))
    (hobserved : Simulates Deep (Observed True True) (Observed True True)
      (x (watching true view)) y) :
    Unperturbed (x (watching false view)) y s t := by
  have hgoes : ¬ Halts Deep (x (watching true unseen)) s := by
    rintro ⟨_, s', hx, rfl⟩
    exact haway (outcome_of_error hx)
  have hgoes' : ¬ Halts Deep (x (watching true view)) s := by
    rintro ⟨_, s', hx, rfl⟩
    have hsame := ((hseen s s hst.self).resolve_left hgoes).1
    exact haway (hsame.trans (outcome_of_error hx))
  obtain ⟨hfirst, hfinal⟩ := (hplain s s hst.self).resolve_left hgoes'
  obtain ⟨hsecond, hfinal'⟩ := (hobserved s t hst).resolve_left hgoes'
  exact ⟨hfirst.symm.trans hsecond, hfinal.beside hfinal'⟩

/-- Watched runs end alike, with or without hooks that record. -/
theorem watched_unperturbed (hst : Observed True True s t) (n d : Nat)
    (view : Execution → Option LogEntry) :
    (∀ here cs, KeepsAway (fun e => escortedBlock e n here cs) s →
      Unperturbed (escortedBlock (watching false view) n here cs)
        (escortedBlock (watching false view) (n + (d + 2)) here cs) s t) ∧
    ∀ th f args, KeepsAway (fun e => escortedCall e n th f args) s →
      Unperturbed (escortedCall (watching false view) n th f args)
        (escortedCall (watching false view) (n + (d + 2)) th f args) s t := by
  obtain ⟨hcall, hblock⟩ :=
    watching_runs False False unseen view true n 0 False.elim False.elim
  obtain ⟨hcall', hblock'⟩ :=
    watching_runs False True view view false n 0 (fun _ => rfl) False.elim
  obtain ⟨hcall'', hblock''⟩ :=
    watching_runs True True view view false n (d + 2) (fun _ => rfl) fun _ => ⟨rfl, by omega⟩
  refine ⟨fun here cs haway => ?_, fun th f args haway => ?_⟩
  · exact .of_watching hst haway (hblock here cs) (hblock' here cs) (hblock'' here cs)
  · exact .of_watching hst haway (hcall th f args) (hcall' th f args) (hcall'' th f args)

/-- Observers do not perturb what they observe.  A run that keeps away from hooks ends with the
same results or the same error in a session without hooks and in one that works on the same
execution under hooks that record, and it leaves the same execution.  The same holds when it is
noted what the run works on, before and after every call and every command outside hooks, so
that it works on the same all along.  The observed run may nest deeper, by the calls of its
hooks. -/
theorem observers_do_not_perturb {n n' : Nat} (hst : Observed True True s t) (hn : n + 2 ≤ n') :
    (∀ here cs, KeepsAway (fun e => escortedBlock e n here cs) s →
      Unperturbed (block n here cs) (block n' here cs) s t ∧
      ∀ view, Unperturbed (escortedBlock (watching false view) n here cs)
        (escortedBlock (watching false view) n' here cs) s t) ∧
    ∀ th f args, KeepsAway (fun e => escortedCall e n th f args) s →
      Unperturbed (Exec.call n th f args) (Exec.call n' th f args) s t ∧
      ∀ view, Unperturbed (escortedCall (watching false view) n th f args)
        (escortedCall (watching false view) n' th f args) s t := by
  obtain ⟨d, rfl⟩ := Nat.exists_eq_add_of_le' hn
  have hnesting : d + (n + 2) = n + (d + 2) := by omega
  rw [hnesting]
  have hplain : ∀ n, escortedRunner (watching false unseen) n = runner n := by
    intro n
    rw [watching_unseen, escortedRunner_none]
  have hcalls : ∀ n, escortedCall (watching false unseen) n = Exec.call n :=
    fun n => congrArg Runner.call (hplain n)
  have hblocks : ∀ n, escortedBlock (watching false unseen) n = block n :=
    fun n => congrArg Runner.block (hplain n)
  refine ⟨fun here cs haway => ⟨?_, fun view => ?_⟩,
    fun th f args haway => ⟨?_, fun view => ?_⟩⟩
  · rw [← hblocks, ← hblocks]
    exact (watched_unperturbed hst n d _).1 here cs haway
  · exact (watched_unperturbed hst n d view).1 here cs haway
  · rw [← hcalls, ← hcalls]
    exact (watched_unperturbed hst n d _).2 th f args haway
  · exact (watched_unperturbed hst n d view).2 th f args haway

/-- A function that records its arguments, a script function that fails after its first
instruction, and a native function that calls it, goes on, and asks for a traceback. -/
def quietSession : Session :=
  let plain : Modifiers := ⟨none, none, none, false⟩
  let recorder : FunctionObject := ⟨.native "hook", .scripted "hook" [.mk plain .args]⟩
  let inner : FunctionObject :=
    ⟨.script ⟨none, 0, 0, 0, false, 0, #[], #[], #[], [], #[]⟩ #[],
      .scripted "inner"
        [.mk plain (.notify (.instruction 0 0 none)), .mk plain (.raise (.runtime "no"))]⟩
  let outer : FunctionObject :=
    ⟨.native "outer", .scripted "outer"
      [.mk { plain with attempt := true } (.call (.value (.function ⟨1⟩)) []),
        .mk plain (.inspect (.traceback 1 none))]⟩
  let start := Session.start ⟨[], .default, false, true⟩
  { start with machine := { start.machine with
      store := { start.machine.store with functions := #[recorder, inner, outer] } } }

theorem quietSession_observed : Observed True True quietSession
    (quietSession.underHook Machine.mainThread ⟨0⟩ "clr" 1 true) := by
  have hthread : ∀ th, quietSession.machine.thread th = .new :=
    thread_start ⟨[], .default, false, true⟩
  have hhook : ∀ th, quietSession.machine.hook th = .initial :=
    fun th => congrArg (·.hook) (hthread th)
  refine observed_underHook (fun th => ?_) (fun th => ?_) ?_ _ _ _ _
  · rw [hhook]
    rfl
  · rw [hhook]
    rfl
  · refine ⟨"hook", "hook", _, rfl, fun c hc => ?_⟩
    rw [List.mem_singleton.mp hc]
    exact ⟨rfl, trivial⟩

/-- The calls of the native function and of the script function. -/
def callOuter : List Command :=
  [.mk ⟨none, none, none, false⟩ (.call (.value (.function ⟨2⟩)) [])]

/-- The two calls go the same way when four events are delivered and an instruction is traced. -/
theorem calls_unperturbed :
    Unperturbed (block 5 .outermost callOuter) (block 7 .outermost callOuter) quietSession
      (quietSession.underHook Machine.mainThread ⟨0⟩ "clr" 1 true) ∧
    (((block 7 .outermost callOuter).final
        (quietSession.underHook Machine.mainThread ⟨0⟩ "clr" 1 true)).machine.deliveries
      Machine.mainThread).map (·.2) = [.call, .call, .count, .ret] := by
  have hcheck : ((escortedBlock (watching true unseen) 5 .outermost callOuter).outcome
      quietSession).isOk = true := by decide +kernel
  have haway : KeepsAway (fun e => escortedBlock e 5 .outermost callOuter) quietSession := by
    intro h
    rw [h] at hcheck
    cases hcheck
  refine ⟨((observers_do_not_perturb quietSession_observed (Nat.le_refl 7)).1 _ _ haway).1, ?_⟩
  decide +kernel

end Exec

end ScriptDebug
