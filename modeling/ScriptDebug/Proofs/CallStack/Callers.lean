import ScriptDebug.Proofs.CallStack.Kept

/-!
# Calls preserve their callers

A call returns, with a result or with an error, at the depth where it was made, and the
calls below it are as they were.  This covers every way in which hooks and bodies can
fail, as long as bodies call functions and report instructions of their own call only.

## Implementation notes

The proof follows the two ways in which calls end.  A native call is reported as left
in any case, a failed script call is unwound; neither looks at what failed.
-/

namespace ScriptDebug

namespace Notification

/-- Whether a notification is about an instruction. -/
def isInstruction : Notification → Bool
  | instruction .. => true
  | ownInstruction .. => true
  | _ => false

end Notification

/-- A command that notifies of nothing but instructions of the running call, and that
runs native functions by calling them. -/
def Command.Contained (c : Command) : Prop :=
  match c.action with
  | .notify a => a.isInstruction = true ∧ c.modifiers.thread = none
  | .callDirectly .. => False
  | _ => True

namespace Exec

open Machine

/-- All threads keep their calls since a machine, apart from a running function. -/
def keptSince (i : Machine × Option ThreadId) (m : Machine) : Prop :=
  Kept Command.Contained i.1 i.2 m

variable {call call' : Caller} {run run' : BodyRunner} {m : Machine} {th : ThreadId}

/-- Functions run on the thread that is named. -/
def runsOn (i : Machine × Option ThreadId) (th : ThreadId) : Prop := i.2 = some th

/-! ## Reports -/

/-- Delivering events is a matter of the calls of the hook. -/
theorem deliver_kept (hcall : CallsAgree keptSince call call') (i : Machine × Option ThreadId)
    (th : ThreadId) (p : PendingEvents) :
    Leads (fun m => keptSince i m ∧ (m.hook th).Calls p) (keptSince i)
      (deliver call th (some p)) (deliver call' th (some p)) := by
  apply Leads.whileInHook (fun _ hm => hm.1)
  intro m hm hout
  have hmarked : keptSince (m.setInHook th true, none) (m.setInHook th true) := .refl hm.1.bodies
  have hdeliver := Agree.deliverAll (I := keptSince (m.setInHook th true, none)) th
    p.function (fun _ e h => h.recordDelivery p.function e) (hcall _ th p.function) p.events
  apply (hdeliver.leads_from hmarked).mono (fun _ => id)
  intro m' hm'
  exact Kept.trans hm.1 (.unmark hout hm')

/-- Entering adds the call that is running. -/
theorem enter_kept (hcall : CallsAgree keptSince call call') (th : ThreadId) (fr : Frame) :
    Leads (keptSince (m, none)) (keptSince (m, some th)) (enter call th fr)
      (enter call' th fr) :=
  .report (fun m => m.noteCall_noted th fr) (fun _ hm => Kept.noteCall hm th fr)
    (deliver_kept hcall (m, some th) th)

/-- Leaving removes it. -/
theorem leave_kept (hcall : CallsAgree keptSince call call') (th : ThreadId) :
    Leads (keptSince (m, some th)) (keptSince (m, none)) (leave call th) (leave call' th) :=
  .report (fun m => m.noteReturn_noted th) (fun _ hm => Kept.noteReturn hm)
    (deliver_kept hcall (m, none) th)

theorem step_kept (hcall : CallsAgree keptSince call call') (th : ThreadId) (pc : Nat)
    (varargs : List Value) (top : Nat) :
    Agree (keptSince (m, some th)) (step call th pc varargs top) (step call' th pc varargs top) :=
  .report (fun m => m.noteInstruction_noted th pc varargs top)
    (fun _ hm => Kept.noteInstruction hm pc varargs top) (deliver_kept hcall (m, some th) th)

/-! ## Calls -/

section Calls

variable {routine : Routine} {args : List Value}

/-- Unwinding after a failure, whether the call of its own was there or not. -/
theorem unwind_kept {α : Type} {inside : Option ThreadId} (hinside : inside = none ∨ inside = some th)
    (h : Halt) : Leads (keptSince (m, inside)) (keptSince (m, none))
      (do onMachine (·.unwindTo th (m.depth th)); throw h : Exec α)
      (do onMachine (·.unwindTo th (m.depth th)); throw h : Exec α) :=
  .onMachine_bind (fun _ hm => Kept.unwindTo hm hinside) (Agree.throw h)

theorem callNative_kept (hcall : CallsAgree keptSince call call')
    (hrun : CommandsAgree Command.Contained keptSince runsOn run run')
    (hbodies : m.store.Every Command.Contained) (hroutine : routine.Every Command.Contained)
    (f : FunctionId) : Leads (· = m) (keptSince (m, none)) (callNative call run f routine th args)
      (callNative call' run' f routine th args) := by
  apply Leads.machine_bind
  intro m' heq
  rw [heq]
  have henter : Leads (· = m) (keptSince (m, some th)) (enter call th (.bare f))
      (enter call' th (.bare f)) := by
    apply (enter_kept hcall th (.bare f)).mono ?_ fun _ => id
    rintro m rfl
    exact Kept.refl hbodies
  apply Leads.attempt_bind henter
  intro r
  split
  · exact unwind_kept (.inr rfl) _
  · have hroutine' : Agree (keptSince (m, some th)) (runNative run routine th args)
        (runNative run' routine th args) :=
      .runNative (Kept.steady m (some th)) hroutine fun label cs hcs =>
        hrun (m, some th) ⟨th, label, args, [], none⟩ cs rfl hcs
    apply Leads.attempt_bind hroutine'
    intro result
    apply Leads.attempt_bind (leave_kept hcall th)
    intro returned
    exact Agree.bind (.resume result) fun vs => .bind (.resume returned) fun _ => .pure vs

/-- A script call is unwound from wherever it fails. -/
theorem interpret_kept (hcall : CallsAgree keptSince call call')
    (hrun : CommandsAgree Command.Contained keptSince runsOn run run')
    (hroutine : routine.Every Command.Contained) (f : FunctionId) (p : Prototype) :
    Agree (keptSince (m, none))
      (orUnwind th (m.depth th) (interpret call run f p routine th args))
      (orUnwind th (m.depth th) (interpret call' run' f p routine th args)) := by
  have hwindow : Agree (keptSince (m, none))
      (fromStore (·.newWindow (initialRegisters p args)))
      (fromStore (·.newWindow (initialRegisters p args))) :=
    .fromStore (Kept.steady m none) fun _ => rfl
  have hbody : ∀ varargs window, Agree (keptSince (m, some th))
      (runScript run routine th args varargs window)
      (runScript run' routine th args varargs window) := fun varargs window =>
    .runScript (Kept.steady m (some th)) hroutine fun label cs hcs =>
      hrun (m, some th) ⟨th, label, args, varargs, some window⟩ cs rfl hcs
  refine Leads.bind_attempt_bind hwindow (fun window => ?_) fun h => unwind_kept (.inl rfl) h
  refine .bind_attempt_bind (enter_kept hcall th _) (fun _ => ?_) fun h => unwind_kept (.inr rfl) h
  refine .bind_attempt_bind (hbody _ window) (fun vs => ?_) fun h => unwind_kept (.inr rfl) h
  refine .bind_attempt_bind (leave_kept hcall th) (fun _ => ?_) fun h => unwind_kept (.inl rfl) h
  exact Agree.pure vs

theorem callScript_kept (hcall : CallsAgree keptSince call call')
    (hrun : CommandsAgree Command.Contained keptSince runsOn run run')
    (hbodies : m.store.Every Command.Contained) (hroutine : routine.Every Command.Contained)
    (f : FunctionId) (p : Prototype) :
    Leads (· = m) (keptSince (m, none)) (callScript call run f p routine th args)
      (callScript call' run' f p routine th args) := by
  have hstart : keptSince (m, none) m := Kept.refl hbodies
  apply Leads.machine_bind
  intro m' heq
  rw [heq]
  split
  · exact (interpret_kept hcall hrun hroutine f p).leads_from hstart
  · exact (Agree.raise .noInterpreter).leads_from hstart

end Calls

/-! ## Whole runs -/

/-- Calls keep all calls that were active before them. -/
theorem keptSince_runInvariant : RunInvariant Command.Contained keptSince runsOn where
  steady i := Kept.steady i.1 i.2
  bodies h := h.bodies
  direct hc ha := by
    simp only [Command.Contained, ha] at hc
  notify := by
    intro call call' hcall i here c a hhost hc ha
    simp only [Command.Contained, ha] at hc
    obtain ⟨hinstruction, hthread⟩ := hc
    obtain ⟨base, inside⟩ := i
    cases hhost
    rw [targetThread, hthread]
    cases a with
    | instruction pc top vs =>
        exact .bind (.varargs here vs) fun vs => step_kept hcall here.thread pc vs top
    | ownInstruction pc top => exact .bind .machine fun m => step_kept hcall here.thread pc _ _
    | call f => cases hinstruction
    | scriptCall f w vs => cases hinstruction
    | ret => cases hinstruction
    | unwind d => cases hinstruction
  invoke := by
    intro call call' run run' hcall hrun i th f args
    apply Leads.machine_bind
    intro m hm
    have hafter : ∀ m', keptSince (m, none) m' → keptSince i m' := fun m' hm' => Kept.trans hm hm'
    split
    · rename_i name routine hf
      exact (callNative_kept hcall hrun hm.bodies (hm.bodies f _ hf) f).mono (fun _ => id) hafter
    · rename_i p cells routine hf
      exact (callScript_kept hcall hrun hm.bodies (hm.bodies f _ hf) f p).mono (fun _ => id) hafter
    · exact (Agree.raise _).leads_from hm

/-- However a call ends, all threads have the calls that they had before, at the same
depth and unchanged. -/
theorem call_preserves_callers (n : Nat) (th : ThreadId) (f : FunctionId) (args : List Value)
    (s : Session) (hbodies : s.machine.store.Every Command.Contained) (th' : ThreadId) :
    let after := ((Exec.call n th f args).final s).machine
    after.depth th' = s.machine.depth th' ∧
      ∀ level, (after.calls th').frame? level = (s.machine.calls th').frame? level := by
  have hrun := (keptSince_runInvariant.keeps n).1 (s.machine, none) th f args
  have hkept := (hrun s (Kept.refl hbodies)).2.calls th'
  rw [ownCalls_none] at hkept
  exact ⟨hkept.depth, fun level => CallStack.frame?_congr hkept.depth hkept.calls level⟩

/-- A thread in a call, about to make another one whose body reports an instruction and
fails; the hook of the thread fails at the return. -/
def failingSession : Session :=
  let plain : Modifiers := ⟨none, none, none, false⟩
  let failing : FunctionObject :=
    ⟨.native "failing", .scripted "failing" [.mk plain (.raise (.runtime "in the hook"))]⟩
  let inner : FunctionObject :=
    ⟨.native "inner", .scripted "inner" [.mk plain (.notify (.instruction 3 0 none)),
      .mk plain (.raise (.runtime "in the call"))]⟩
  let hook : Hook := ⟨some ⟨0⟩, ⟨false, false, true⟩, 0, 0, false, none⟩
  let start := Session.start ⟨[], .default, false, true⟩
  { start with machine := { start.machine with
      store := { start.machine.store with functions := #[failing, inner] }
      threads := #[⟨some ((CallStack.empty.push (.bare ⟨1⟩))), hook⟩] } }

/-- The failing call leaves the one below it as it was. -/
theorem failing_call_preserves_caller :
    failingSession.machine.store.Every Command.Contained ∧
      let after := ((Exec.call 4 mainThread ⟨1⟩ []).final failingSession).machine
      after.depth mainThread = failingSession.machine.depth mainThread ∧
        ∀ level, (after.calls mainThread).frame? level =
          (failingSession.machine.calls mainThread).frame? level := by
  have hbodies : failingSession.machine.store.Every Command.Contained := by
    apply Store.Every.of_mem
    intro o ho
    simp only [failingSession, List.mem_toArray, List.mem_cons, List.not_mem_nil, or_false] at ho
    obtain rfl | rfl := ho
    · intro c hc
      rw [List.mem_singleton.mp hc]
      exact .of_inner_nil trivial rfl
    · intro c hc
      simp only [List.mem_cons, List.not_mem_nil, or_false] at hc
      obtain rfl | rfl := hc
      · exact .of_inner_nil ⟨rfl, rfl⟩ rfl
      · exact .of_inner_nil trivial rfl
  exact ⟨hbodies, call_preserves_callers 4 mainThread ⟨1⟩ [] failingSession hbodies mainThread⟩

end Exec

end ScriptDebug
