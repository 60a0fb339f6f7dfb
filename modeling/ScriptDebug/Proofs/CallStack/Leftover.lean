import ScriptDebug.Proofs.CallStack.Floor

/-!
# Calls that a failed call leaves behind

A function may report calls of its own and never report their return.  When a script call
fails, whatever it left is unwound.  When a native call fails, one return is reported for
it, so the thread stays as much deeper as the function left calls.  The calls below are as
they were in both cases, provided that the function does not return from them.

## Implementation notes

That a function stays above its callers is a matter of its run: the run under guards of
the depth does not fall.
-/

namespace ScriptDebug

namespace Exec

open Machine

/-- Report a call and run its routine, up to the report of its return. -/
def underway (call : Caller) (run : BodyRunner) (f : FunctionId) (o : FunctionObject)
    (th : ThreadId) (args : List Value) : Exec (List Value) :=
  match o.callable with
  | .native _ => do
    enter call th (.bare f)
    runNative run o.routine th args
  | .script p _ => do
    let window ← fromStore (·.newWindow (initialRegisters p args))
    let varargs := if p.isVararg then args.drop p.paramCount else []
    enter call th (.script f varargs window p.windowSize)
    runScript run o.routine th args varargs window

/-- The session in which the return of a call is reported, if it comes to that: a native
function returns once it was entered, a script function only without an error. -/
def beforeReturn? (n : Nat) (f : FunctionId) (o : FunctionObject) (th : ThreadId)
    (args : List Value) (s : Session) : Option Session :=
  match o.callable with
  | .native _ =>
    match enter (call n) th (.bare f) s with
    | .ok _ s => some ((runNative (body n) o.routine th args).final s)
    | .error _ _ => none
  | .script _ _ =>
    match underway (call n) (body n) f o th args s with
    | .ok _ s => some s
    | .error _ _ => none

/-- No call of the hook that is told of a return gets the thread below a depth. -/
def ReturnsAbove (n : Nat) (th : ThreadId) (d : Nat) (s : Session) : Prop :=
  ¬ Fallen (reaches th d) (leave (guardedCall (reaches th d) n) th) s

/-- A call does not get its thread down to where it was made before it returns, and not
further down while it returns. -/
structure StaysAbove (n : Nat) (f : FunctionId) (o : FunctionObject) (th : ThreadId)
    (args : List Value) (s : Session) : Prop where
  running :
    let ok := reaches th (s.machine.depth th + 1)
    ¬ Fallen ok (underway (guardedCall ok n) (guardedBody ok n) f o th args) s
  leaving : ∀ s₂ ∈ beforeReturn? n f o th args s, ReturnsAbove n th (s.machine.depth th) s₂

/-- A native function was entered, and after its one return there are calls left above
those that were there before. -/
def LeavesCalls (n : Nat) (f : FunctionId) (o : FunctionObject) (th : ThreadId)
    (args : List Value) (s : Session) : Prop :=
  (∃ name, o.callable = .native name) ∧ ∃ s₂ ∈ beforeReturn? n f o th args s,
    s.machine.depth th < ((leave (call n) th).final s₂).machine.depth th

variable {ok : Machine → Bool} {call call' : Caller} {run run' : BodyRunner} {m : Machine}
  {th : ThreadId} {base : CallStack}

/-! ## The way to the return -/

/-- A thread outside its hook, with given calls. -/
structure Outside (th : ThreadId) (base : CallStack) (m : Machine) : Prop where
  isSome : (m.thread? th).isSome
  outside : (m.hook th).inHook = false
  calls : m.calls th = base

/-- Entering adds the call of the function. -/
theorem enter_guided {J : Machine → Prop}
    (h : Guide ok (fun m => CallStack.Extends 1 base (m.calls th)) J)
    (hcall : CallsGuided ok (fun m => CallStack.Extends 1 base (m.calls th)) J call call')
    (fr : Frame) : Guided ok (Outside th base) (fun m => CallStack.Extends 1 base (m.calls th))
      (enter call th fr) (enter call' th fr) := by
  refine .report h.lasting h.firm
    (fun th f args => (hcall.guided th f args).mono h.weaken fun _ => id) fun m hm => ?_
  rw [noteCall_outside hm.outside, Machine.calls, thread_setThread_self hm.isSome]
  rw [hm.calls]
  exact (CallStack.Extends.refl base).push fr

theorem underway_guided {J : Machine → Prop}
    (h : Guide ok (fun m => CallStack.Extends 1 base (m.calls th)) J)
    (hcall : CallsGuided ok (fun m => CallStack.Extends 1 base (m.calls th)) J call call')
    (hrun : CommandsGuided ok (fun m => CallStack.Extends 1 base (m.calls th)) run run')
    (f : FunctionId) (o : FunctionObject) (args : List Value) :
    Guided ok (Outside th base) (fun m => CallStack.Extends 1 base (m.calls th))
      (underway call run f o th args) (underway call' run' f o th args) := by
  unfold underway
  cases o.callable with
  | native name =>
      exact (enter_guided h hcall _).bind (fun _ => h.runNative hrun o.routine th args) fun _ => id
  | script p cells =>
      refine Guided.fromMachine_bind fun m hm => ?_
      refine Guided.from_machine (I := Outside th base) ?_ ⟨hm.isSome, hm.outside, hm.calls⟩
      exact (enter_guided h hcall _).bind (fun _ => h.runScript hrun o.routine th args _ _)
        fun _ => id

/-- A run up to the return leaves the marks of hooks as they were. -/
theorem underway_marks (base : Machine) (n : Nat) (f : FunctionId) (o : FunctionObject)
    (th : ThreadId) (args : List Value) :
    Agree (SameMarks base) (underway (Exec.call n) (body n) f o th args)
      (underway (Exec.call n) (body n) f o th args) := by
  have h := SameMarks.reportInvariant
  obtain ⟨hcall, hbody, -⟩ := h.runInvariant.keeps n
  have hroutine : o.routine.Every fun _ => True := by
    cases o.routine with
    | library g => trivial
    | scripted label cs => exact fun c _ => .of_forall (fun _ => trivial) c
  unfold underway
  cases o.callable with
  | native name =>
      refine .bind (h.enter hcall base th _) fun _ => ?_
      exact .runNative (h.steady base) hroutine fun label cs hcs => hbody base _ cs trivial hcs
  | script p cells =>
      refine .bind (.fromStore (h.steady base) fun _ => rfl) fun window => ?_
      refine .bind (h.enter hcall base th _) fun _ => ?_
      exact .runScript (h.steady base) hroutine fun label cs hcs => hbody base _ cs trivial hcs

/-! ## The return -/

/-- Leaving removes one call, and of those that are left only what the hook drops. -/
theorem leave_guided {top : Nat} (hth : (m.thread? th).isSome) (hout : (m.hook th).inHook = false)
    (hextends : CallStack.Extends 1 base (m.calls th)) (htop : (m.calls th).depth ≤ top + 1)
    (hcall : CallsGuided ok (HeldAbove th base top) (Held th base top) call call')
    (h : Guide ok (HeldAbove th base top) (Held th base top)) :
    Guided ok (· = m) (fun m' => CallStack.Extends 0 base (m'.calls th) ∧
      (m'.calls th).depth ≤ top) (leave call th) (leave call' th) := by
  have hpop := hextends.pop
  have hdepth : (m.calls th).pop.depth ≤ top := by
    rw [CallStack.pop_depth]
    omega
  apply Guided.fromMachine_bind
  rintro m rfl
  rw [noteReturn_outside hout]
  have hcalls : ∀ t, (m.setThread th t).calls th = t.calls := fun t =>
    congrArg Thread.calls (thread_setThread_self hth t)
  cases (m.hook th).returnEvents with
  | none => exact .of_leads (Agree.leads_from (.pure ()) (by rw [hcalls]; exact ⟨hpop, hdepth⟩))
  | some p =>
      refine .whileInHook h.lasting (fun m' hm' => by rw [hm', hcalls]; exact ⟨hpop, hdepth⟩) ?_
      rintro m' rfl -
      have hth' : ∀ t, ((m.setThread th t).thread? th).isSome := by simpa using hth
      have hmarked : ∀ t : Thread, t.calls = (m.calls th).pop →
          HeldAbove th base top ((m.setThread th t).setInHook th true) := by
        intro t ht
        have hcalls' : ((m.setThread th t).setInHook th true).calls th = (m.calls th).pop :=
          (calls_setInHook ..).trans ((hcalls t).trans ht)
        refine .of_extends ?_ (hcalls'.symm ▸ hpop) (hcalls'.symm ▸ hdepth)
        rw [hook_setInHook_self (hth' t)]
      have hdeliver := Guided.deliverAll h.firm
        (fun th f args => (hcall.guided th f args).mono h.weaken fun _ => id) th p.function p.events
      refine (hdeliver.from_machine (hmarked _ rfl)).mono (fun _ => id) fun m'' hm'' => ?_
      rw [calls_setInHook]
      exact ⟨hm''.extends_of_le hm''.le_depth, hm''.depth_le⟩

/-! ## Failed calls -/

section Outcome

variable {f : FunctionId} {routine : Routine} {args : List Value} {s s₁ : Session}

/-- A native call that is not entered is unwound. -/
theorem callNative_of_refused {h : Halt} (henter : enter call th (.bare f) s = .error h s₁) :
    callNative call run f routine th args s =
      .error h { s₁ with machine := s₁.machine.unwindTo th (s.machine.depth th) } := by
  rw [callNative, bind_eq_of_ok (x := machine) rfl,
    bind_eq_of_ok (attempt_eq_of_error henter)]
  rfl

/-- A native call that is entered reports its return after its routine, in any case. -/
theorem callNative_of_entered (henter : enter call th (.bare f) s = .ok () s₁) :
    (callNative call run f routine th args).final s =
      (leave call th).final ((runNative run routine th args).final s₁) := by
  obtain ⟨result, hresult⟩ := attempt_eq (runNative run routine th args) s₁
  obtain ⟨returned, hreturned⟩ :=
    attempt_eq (leave call th) ((runNative run routine th args).final s₁)
  rw [callNative, final_bind_of_ok (x := machine) rfl, final_bind_of_ok (attempt_eq_of_ok henter),
    final_bind_of_ok hresult, final_bind_of_ok hreturned]
  cases result with
  | error h => rfl
  | ok vs => cases returned <;> rfl

/-- A script call is what is underway up to its return, and then the return. -/
theorem interpret_eq_bind (f : FunctionId) (p : Prototype) (cells : Array CellId)
    (routine : Routine) (th : ThreadId) (args : List Value) :
    interpret call run f p routine th args =
      underway call run f ⟨.script p cells, routine⟩ th args >>= fun vs =>
        leave call th >>= fun _ => pure vs := by
  simp only [interpret, underway, bind_assoc]

/-- A script call that returns from the interpreter does not fail. -/
theorem callScript_of_returned {p : Prototype} {vs : List Value}
    (hinterpreter : s.machine.hasInterpreter)
    (hreturned : interpret call run f p routine th args s = .ok vs s₁) :
    callScript call run f p routine th args s = .ok vs s₁ := by
  have hmachine : machine s = .ok s.machine s := rfl
  rw [callScript, bind_eq_of_ok hmachine, if_pos hinterpreter, orUnwind,
    bind_eq_of_ok (attempt_eq_of_ok hreturned)]
  rfl

/-- A script call that fails is unwound. -/
theorem callScript_of_failed {p : Prototype} {h : Halt} (hinterpreter : s.machine.hasInterpreter)
    (hfail : interpret call run f p routine th args s = .error h s₁) :
    callScript call run f p routine th args s =
      .error h { s₁ with machine := s₁.machine.unwindTo th (s.machine.depth th) } := by
  have hmachine : machine s = .ok s.machine s := rfl
  rw [callScript, bind_eq_of_ok hmachine, if_pos hinterpreter, orUnwind,
    bind_eq_of_ok (attempt_eq_of_error hfail)]
  rfl

theorem call_of_native {n : Nat} {name : String}
    (hf : s.machine.store.function? f = some ⟨.native name, routine⟩) :
    Exec.call (n + 1) th f args s = callNative (Exec.call n) (body n) f routine th args s := by
  rw [call_succ, invoke, bind_eq_of_ok (x := machine) rfl, hf]

theorem call_of_script {n : Nat} {p : Prototype} {cells : Array CellId}
    (hf : s.machine.store.function? f = some ⟨.script p cells, routine⟩) :
    Exec.call (n + 1) th f args s = callScript (Exec.call n) (body n) f p routine th args s := by
  rw [call_succ, invoke, bind_eq_of_ok (x := machine) rfl, hf]

end Outcome

section Failure

variable {n : Nat} {f : FunctionId} {o : FunctionObject} {args : List Value} {s s' s₂ : Session}
  {e : ScriptError}

/-- A run up to the return ends above the callers, outside the hook. -/
theorem underway_extends (hstart : Outside th (s.machine.calls th) s.machine)
    (habove : StaysAbove n f o th args s) :
    let after := ((underway (Exec.call n) (body n) f o th args).final s).machine
    CallStack.Extends 1 (s.machine.calls th) (after.calls th) ∧ (after.hook th).inHook = false := by
  have hguide := guide_extends th (s.machine.calls th)
  obtain ⟨hcall, hbody, -⟩ := hguide.runs n
  constructor
  · exact ((underway_guided hguide hcall hbody f o args s hstart).resolve_left habove.running).2
  · rw [(underway_marks s.machine n f o th args s (.refl _)).2 th]
    exact hstart.outside

/-- The return of a call leaves the calls below. -/
theorem leave_extends (hout : (s₂.machine.hook th).inHook = false)
    (hextends : CallStack.Extends 1 base (s₂.machine.calls th))
    (habove : ReturnsAbove n th base.depth s₂) :
    let after := ((leave (Exec.call n) th).final s₂).machine
    CallStack.Extends 0 base (after.calls th) ∧ after.depth th ≤ s₂.machine.depth th - 1 := by
  have hpos : 0 < s₂.machine.depth th := Nat.lt_of_lt_of_le (Nat.succ_pos _) hextends.depth
  have hguide := guide_held th base (s₂.machine.depth th - 1)
  obtain ⟨hcall, -, -⟩ := hguide.runs n
  have hleave := leave_guided (isSome_of_depth_pos hpos) hout hextends
    (by rw [← depth_eq_calls_depth]; omega) hcall hguide
  exact ((hleave s₂ rfl).resolve_left habove).2

/-- A return in which the hook drops no calls takes one call. -/
theorem leave_pops (hout : (s₂.machine.hook th).inHook = false) (hpos : 0 < s₂.machine.depth th)
    (habove : ReturnsAbove n th (s₂.machine.depth th - 1) s₂) :
    let after := ((leave (Exec.call n) th).final s₂).machine.calls th
    after.depth = (s₂.machine.calls th).pop.depth ∧
      CallStack.Extends 0 (s₂.machine.calls th).pop after := by
  have hdepth : (s₂.machine.calls th).pop.depth = s₂.machine.depth th - 1 :=
    CallStack.pop_depth _
  rw [← hdepth] at habove
  obtain ⟨hextends, hle⟩ := leave_extends hout (.of_pop hpos) habove
  rw [← hdepth] at hle
  exact ⟨Nat.le_antisymm hle hextends.depth, hextends⟩

/-- A native call that is refused by the hook is unwound. -/
theorem native_refused {name : String} (ho : o.callable = .native name)
    (hstart : Outside th (s.machine.calls th) s.machine) (habove : StaysAbove n f o th args s)
    (hbefore : beforeReturn? n f o th args s = none)
    (hfail : callNative (Exec.call n) (body n) f o.routine th args s = .error (.raised e) s') :
    (s'.machine.calls th).depth = (s.machine.calls th).depth ∧
      CallStack.Extends 0 (s.machine.calls th) (s'.machine.calls th) := by
  simp only [beforeReturn?, ho] at hbefore
  cases henter : enter (Exec.call n) th (.bare f) s with
  | ok a s₁ =>
      rw [henter] at hbefore
      cases hbefore
  | error h s₁ =>
      have hafter : (underway (Exec.call n) (body n) f o th args).final s = s₁ := by
        simp only [underway, ho, final_bind, henter]
      have hextends := (underway_extends hstart habove).1
      rw [hafter] at hextends
      cases (callNative_of_refused henter).symm.trans hfail
      exact unwindTo_extends hextends

/-- A native call that was entered returns once, from above its callers. -/
theorem native_entered {name : String} (ho : o.callable = .native name)
    (hstart : Outside th (s.machine.calls th) s.machine) (habove : StaysAbove n f o th args s)
    (hbefore : beforeReturn? n f o th args s = some s₂) :
    (callNative (Exec.call n) (body n) f o.routine th args).final s =
        (leave (Exec.call n) th).final s₂ ∧
      CallStack.Extends 1 (s.machine.calls th) (s₂.machine.calls th) ∧
      (s₂.machine.hook th).inHook = false := by
  simp only [beforeReturn?, ho] at hbefore
  cases henter : enter (Exec.call n) th (.bare f) s with
  | error h s₁ =>
      rw [henter] at hbefore
      cases hbefore
  | ok a s₁ =>
      rw [henter] at hbefore
      cases hbefore
      have hafter : (underway (Exec.call n) (body n) f o th args).final s =
          (runNative (body n) o.routine th args).final s₁ := by
        simp only [underway, ho, final_bind, henter]
      rw [← hafter]
      refine ⟨?_, underway_extends hstart habove⟩
      rw [hafter]
      exact callNative_of_entered henter

/-- Wherever a script call fails in the interpreter, its callers are still there. -/
theorem interpret_failed {p : Prototype} {cells : Array CellId} {h : Halt}
    (ho : o.callable = .script p cells)
    (hstart : Outside th (s.machine.calls th) s.machine) (habove : StaysAbove n f o th args s)
    (hfail : interpret (Exec.call n) (body n) f p o.routine th args s = .error h s₂) :
    CallStack.Extends 0 (s.machine.calls th) (s₂.machine.calls th) := by
  obtain ⟨hextends, hout⟩ := underway_extends hstart habove
  have hleaving := habove.leaving
  obtain ⟨callable, routine⟩ := o
  cases ho
  rw [interpret_eq_bind f p cells] at hfail
  simp only [beforeReturn?] at hleaving
  cases hunderway : underway (Exec.call n) (body n) f ⟨.script p cells, routine⟩ th args s with
  | error h' s₁ =>
      cases (bind_eq_of_error hunderway _).symm.trans hfail
      simp only [final, hunderway] at hextends
      exact hextends.weaken
  | ok vs s₁ =>
      rw [bind_eq_of_ok hunderway] at hfail
      rw [hunderway] at hleaving
      simp only [final, hunderway] at hextends hout
      have hleave := (leave_extends hout hextends (hleaving s₁ rfl)).1
      cases hreturned : leave (Exec.call n) th s₁ with
      | ok a s₃ =>
          cases (bind_eq_of_ok hreturned _).symm.trans hfail
      | error h' s₃ =>
          cases (bind_eq_of_error hreturned _).symm.trans hfail
          simp only [final, hreturned] at hleave
          exact hleave

/-- A failed script call is unwound. -/
theorem failed_script_call {p : Prototype} {cells : Array CellId}
    (ho : o.callable = .script p cells)
    (hstart : Outside th (s.machine.calls th) s.machine) (habove : StaysAbove n f o th args s)
    (hfail : callScript (Exec.call n) (body n) f p o.routine th args s = .error (.raised e) s') :
    (s'.machine.calls th).depth = (s.machine.calls th).depth ∧
      CallStack.Extends 0 (s.machine.calls th) (s'.machine.calls th) := by
  cases hinterpreter : s.machine.hasInterpreter with
  | false =>
      have hraise : callScript (Exec.call n) (body n) f p o.routine th args s =
          .error (.raised .noInterpreter) s := by
        rw [callScript, bind_eq_of_ok (x := machine) rfl, if_neg (by simp [hinterpreter])]
        rfl
      cases hraise.symm.trans hfail
      exact ⟨rfl, .refl _⟩
  | true =>
      cases hinterpret : interpret (Exec.call n) (body n) f p o.routine th args s with
      | error h s₁ =>
          have hextends := interpret_failed ho hstart habove hinterpret
          cases (callScript_of_failed hinterpreter hinterpret).symm.trans hfail
          exact unwindTo_extends hextends
      | ok vs s₁ =>
          cases (callScript_of_returned hinterpreter hinterpret).symm.trans hfail

theorem leavesCalls_iff {name : String} (ho : o.callable = .native name)
    (hbefore : beforeReturn? n f o th args s = some s₂) : LeavesCalls n f o th args s ↔
      s.machine.depth th < ((leave (Exec.call n) th).final s₂).machine.depth th := by
  constructor
  · rintro ⟨-, s₂', hs₂, hlt⟩
    cases hbefore.symm.trans hs₂
    exact hlt
  · exact fun hlt => ⟨⟨name, ho⟩, s₂, hbefore, hlt⟩

/-- A failed call leaves the calls below it as they were.  It leaves none of its own,
except if it is a native call that was entered and has more calls than the one whose
return is reported; then these are left, as far as the hook does not drop them. -/
theorem failed_call_restores_iff (n : Nat) (th : ThreadId) (f : FunctionId) (o : FunctionObject)
    (args : List Value) (s s' : Session) (e : ScriptError) (hth : (s.machine.thread? th).isSome)
    (hout : (s.machine.hook th).inHook = false) (hf : s.machine.store.function? f = some o)
    (habove : StaysAbove n f o th args s)
    (hfail : Exec.call (n + 1) th f args s = .error (.raised e) s') :
    let before := s.machine.calls th
    let after := s'.machine.calls th
    CallStack.Extends 0 before after ∧
      ((after.depth = before.depth ∧ ∀ level, after.frame? level = before.frame? level) ↔
        ¬ LeavesCalls n f o th args s) ∧
      ∀ name, o.callable = .native name → ∀ s₂ ∈ beforeReturn? n f o th args s,
        ReturnsAbove n th (s₂.machine.depth th - 1) s₂ →
          let left := (s₂.machine.calls th).pop
          after.depth = left.depth ∧ ∀ level, after.frame? level = left.frame? level := by
  intro before after
  have hstart : Outside th before s.machine := ⟨hth, hout, rfl⟩
  obtain ⟨callable, routine⟩ := o
  cases callable with
  | script p cells =>
      rw [call_of_script hf] at hfail
      obtain ⟨hdepth, hextends⟩ := failed_script_call rfl hstart habove hfail
      refine ⟨hextends, iff_of_true ⟨hdepth, hextends.frame?_eq hdepth⟩ ?_, ?_⟩
      · rintro ⟨⟨name, hnative⟩, -⟩
        cases hnative
      · rintro name ⟨⟩
  | native name =>
      rw [call_of_native hf] at hfail
      cases hbefore : beforeReturn? n f ⟨.native name, routine⟩ th args s with
      | none =>
          obtain ⟨hdepth, hextends⟩ := native_refused rfl hstart habove hbefore hfail
          refine ⟨hextends, iff_of_true ⟨hdepth, hextends.frame?_eq hdepth⟩ ?_, ?_⟩
          · rintro ⟨-, s₂, hs₂, -⟩
            cases hbefore.symm.trans hs₂
          · rintro _ - s₂ ⟨⟩
      | some s₂ =>
          obtain ⟨hfinal, hextends, hout₂⟩ := native_entered rfl hstart habove hbefore
          have hs' : (leave (Exec.call n) th).final s₂ = s' := by
            rw [← hfinal]
            simp only [final, hfail]
          obtain ⟨hkept, -⟩ := leave_extends hout₂ hextends (habove.leaving s₂ hbefore)
          rw [hs'] at hkept
          refine ⟨hkept, ?_, ?_⟩
          · rw [leavesCalls_iff rfl hbefore, hs', Nat.not_lt]
            refine ⟨fun h => Nat.le_of_eq h.1, fun hle => ?_⟩
            have hdepth : after.depth = before.depth := Nat.le_antisymm hle hkept.depth
            exact ⟨hdepth, hkept.frame?_eq hdepth⟩
          · rintro _ - s₂' ⟨⟩ hreturn
            have hpos : 0 < s₂.machine.depth th :=
              Nat.lt_of_lt_of_le (Nat.succ_pos _) hextends.depth
            obtain ⟨hdepth, hpopped⟩ := leave_pops hout₂ hpos hreturn
            rw [hs'] at hdepth hpopped
            exact ⟨hdepth, hpopped.frame?_eq hdepth⟩

end Failure

/-- A native function that reports a call of itself and fails before it reports the return. -/
def halfway : FunctionObject :=
  let plain : Modifiers := ⟨none, none, none, false⟩
  ⟨.native "halfway", .scripted "halfway" [.mk plain (.notify (.call (.function "halfway"))),
    .mk plain (.raise (.runtime "halfway"))]⟩

/-- A session at its start, with that function. -/
def halfwaySession : Session :=
  let start := Session.start ⟨[], .default, false, true⟩
  { start with
    functions := [("halfway", ⟨0⟩)]
    machine := { start.machine with
      store := { start.machine.store with functions := #[halfway] } } }

theorem halfway_staysAbove : StaysAbove 3 ⟨0⟩ halfway mainThread [] halfwaySession := by
  refine ⟨by decide +kernel, ?_⟩
  unfold ReturnsAbove
  decide +kernel

theorem halfway_fails : Exec.call 4 mainThread ⟨0⟩ [] halfwaySession =
    .error (.raised (.runtime "halfway"))
      ((Exec.call 4 mainThread ⟨0⟩ []).final halfwaySession) := by
  rfl

/-- The call that the function left is why the thread is not as it was. -/
theorem halfway_call_not_restored :
    LeavesCalls 3 ⟨0⟩ halfway mainThread [] halfwaySession ∧
      let before := halfwaySession.machine.calls mainThread
      let after := ((Exec.call 4 mainThread ⟨0⟩ []).final halfwaySession).machine.calls mainThread
      CallStack.Extends 0 before after ∧
        ¬ (after.depth = before.depth ∧ ∀ level, after.frame? level = before.frame? level) := by
  have hleaves : LeavesCalls 3 ⟨0⟩ halfway mainThread [] halfwaySession :=
    ⟨⟨"halfway", rfl⟩, _, rfl, by decide +kernel⟩
  obtain ⟨hkept, hrestored, -⟩ := failed_call_restores_iff 3 mainThread ⟨0⟩ halfway []
    halfwaySession _ (.runtime "halfway") (by decide) (by decide) rfl halfway_staysAbove
    halfway_fails
  exact ⟨hleaves, hkept, fun h => hrestored.mp h hleaves⟩

/-- The thread is one call deeper after the failed call. -/
theorem failed_native_call_leaves_call :
    (halfwaySession.machine.hook mainThread).inHook = false ∧
      StaysAbove 3 ⟨0⟩ halfway mainThread [] halfwaySession ∧
      let after := (Exec.call 4 mainThread ⟨0⟩ []).final halfwaySession
      Exec.call 4 mainThread ⟨0⟩ [] halfwaySession =
          .error (.raised (.runtime "halfway")) after ∧
        after.machine.depth mainThread = halfwaySession.machine.depth mainThread + 1 :=
  ⟨rfl, halfway_staysAbove, halfway_fails, by decide +kernel⟩

end Exec

end ScriptDebug
