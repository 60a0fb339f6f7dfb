import ScriptDebug.Proofs.CallStack.Leftover

/-!
# Errors on their way out

An error leaves all calls around the function that raises it, as long as no command
attempts the call that fails.  Native functions hand it on as a failure of their own, script
functions as it is, and hooks that fail meanwhile do not get in its way.  What comes out of
the outermost call shows the same value and the same text.

## Implementation notes

`RaisedWithin` is a chain of calls from the outermost to the one that raises.  Its first
three cases are the ways in which an error can arise, the last one adds a call around.
-/

namespace ScriptDebug

namespace ScriptError

/-- What is left of an error behind a native function. -/
def crossed (e : ScriptError) : ScriptError := ofNative (.ofScript e)

@[simp] theorem toValue_crossed (e : ScriptError) : e.crossed.toValue = e.toValue := by
  simp [crossed]

@[simp] theorem text_crossed (e : ScriptError) : e.crossed.text = e.text := by
  simp [crossed]

/-- An error that has crossed one boundary crosses all others unchanged. -/
@[simp] theorem crossed_crossed (e : ScriptError) : e.crossed.crossed = e.crossed := by
  cases e <;> rfl

/-- An error shows what another one does, and a raised value is still that value. -/
structure Carries (e e' : ScriptError) : Prop where
  toValue : e'.toValue = e.toValue
  text : e'.text = e.text
  value : ∀ v, e = .value v → e' = .value v

namespace Carries

variable {e e' e'' : ScriptError}

theorem refl (e : ScriptError) : Carries e e := ⟨rfl, rfl, fun _ => id⟩

theorem trans (h : Carries e e') (h' : Carries e' e'') : Carries e e'' where
  toValue := h'.toValue.trans h.toValue
  text := h'.text.trans h.text
  value v hv := h'.value v (h.value v hv)

theorem crossed (e : ScriptError) : Carries e e.crossed where
  toValue := e.toValue_crossed
  text := e.text_crossed
  value := by
    rintro v rfl
    rfl

end Carries

end ScriptError

namespace Exec

/-! ## Entering a function -/

/-- The varargs and the window of a script call; a native call has neither. -/
abbrev Place := Option (List Value × WindowId)

/-- What a body finds around it when its function has been entered. -/
def Place.surroundings (place : Place) (th : ThreadId) (label : String) (args : List Value) :
    Surroundings :=
  ⟨th, label, args, (place.map (·.1)).getD [], place.map (·.2)⟩

/-- Make the window of a script call and report the call. -/
def enterScript (call : Caller) (f : FunctionId) (p : Prototype) (th : ThreadId)
    (args : List Value) : Exec Place := do
  let window ← fromStore (·.newWindow (initialRegisters p args))
  let varargs := if p.isVararg then args.drop p.paramCount else []
  enter call th (.script f varargs window p.windowSize)
  return some (varargs, window)

/-- Report a call, so that its routine can run. -/
def entering (call : Caller) (f : FunctionId) (callable : Callable) (th : ThreadId)
    (args : List Value) : Exec Place :=
  match callable with
  | .native _ => do
    enter call th (.bare f)
    return none
  | .script p _ => do
    if (← machine).hasInterpreter then enterScript call f p th args else raise .noInterpreter

/-- Run the routine of a function that has been entered. -/
def runEntered (run : BodyRunner) (routine : Routine) (th : ThreadId) (args : List Value) :
    Place → Exec (List Value)
  | none => runNative run routine th args
  | some (varargs, window) => runScript run routine th args varargs window

theorem interpret_eq_enterScript (call : Caller) (run : BodyRunner) (f : FunctionId)
    (p : Prototype) (routine : Routine) (th : ThreadId) (args : List Value) :
    interpret call run f p routine th args =
      enterScript call f p th args >>= fun place =>
        runEntered run routine th args place >>= fun vs => leave call th >>= fun _ => pure vs := by
  simp only [interpret, enterScript, runEntered, bind_assoc, pure_bind]

section Entered

variable {n : Nat} {th : ThreadId} {f : FunctionId} {args : List Value} {callable : Callable}
  {routine : Routine} {name : String} {p : Prototype} {cells : Array CellId} {place : Place}
  {s s₁ s₂ : Session} {h : Halt}

theorem entering_native (call : Caller) :
    entering call f (.native name) th args = enter call th (.bare f) >>= fun _ => pure none :=
  rfl

theorem entering_script (call : Caller) : entering call f (.script p cells) th args s =
    if s.machine.hasInterpreter then enterScript call f p th args s
    else .error (.raised .noInterpreter) s := by
  have hmachine : machine s = .ok s.machine s := rfl
  rw [entering, bind_eq_of_ok hmachine]
  split <;> rfl

/-- A call whose function is not entered fails for the same reason. -/
theorem call_of_refused (hf : s.machine.store.function? f = some ⟨callable, routine⟩)
    (hrefused : entering (call n) f callable th args s = .error h s₁) :
    ∃ s', call (n + 1) th f args s = .error h s' := by
  cases callable with
  | native name =>
      rw [entering_native, bind_apply] at hrefused
      split at hrefused
      · cases hrefused
      · cases hrefused
        rename_i henter
        exact ⟨_, (call_of_native hf).trans (callNative_of_refused henter)⟩
  | script p cells =>
      rw [entering_script] at hrefused
      rw [call_of_script hf]
      split at hrefused
      · rename_i hinterpreter
        have hfail : interpret (call n) (body n) f p routine th args s = .error h s₁ := by
          rw [interpret_eq_enterScript, bind_eq_of_error hrefused]
        exact ⟨_, callScript_of_failed hinterpreter hfail⟩
      · rename_i hinterpreter
        cases hrefused
        refine ⟨s, ?_⟩
        rw [callScript, bind_eq_of_ok (x := machine) rfl, if_neg hinterpreter]
        rfl

/-- A call whose routine fails does so too, whatever its return leads to. -/
theorem call_of_failed (hf : s.machine.store.function? f = some ⟨callable, routine⟩)
    (hentered : entering (call n) f callable th args s = .ok place s₁)
    (hfail : runEntered (body n) routine th args place s₁ = .error h s₂) :
    ∃ s', call (n + 1) th f args s = .error h s' := by
  cases callable with
  | native name =>
      rw [entering_native, bind_apply] at hentered
      split at hentered
      · cases hentered
        rename_i henter
        obtain ⟨returned, hreturned⟩ := attempt_eq (leave (call n) th) s₂
        refine ⟨(leave (call n) th).final s₂, ?_⟩
        rw [call_of_native hf, callNative, bind_eq_of_ok (x := machine) rfl,
          bind_eq_of_ok (attempt_eq_of_ok henter)]
        -- the return has an outcome of its own, but the failure comes first
        refine (bind_eq_of_ok (attempt_eq_of_error hfail) _).trans ?_
        exact bind_eq_of_ok hreturned _
      · cases hentered
  | script p cells =>
      rw [entering_script] at hentered
      split at hentered
      · rename_i hinterpreter
        have hinterpret : interpret (call n) (body n) f p routine th args s = .error h s₂ := by
          rw [interpret_eq_enterScript, bind_eq_of_ok hentered, bind_eq_of_error hfail]
        exact ⟨_, (call_of_script hf).trans (callScript_of_failed hinterpreter hinterpret)⟩
      · cases hentered

/-- A native routine hands the error of its body on as a failure, a script one as it is. -/
theorem runEntered_of_failed_body {label : String} {cs : List Command} {e : ScriptError}
    (hfail : body n (place.surroundings th label args) cs s₁ = .error (.raised e) s₂) :
    ∃ e', runEntered (body n) (.scripted label cs) th args place s₁ = .error (.raised e') s₂ ∧
      e.Carries e' := by
  cases place with
  | none =>
      refine ⟨e.crossed, ?_, .crossed e⟩
      exact bind_eq_of_ok (attempt_eq_of_error hfail) _
  | some p => exact ⟨e, hfail, .refl e⟩

theorem runEntered_of_failed_library {g : LibraryFunction} {e : NativeError}
    (hfail : g.run s₁.machine th args = .error e) :
    runEntered (body n) (.library g) th args place s₁ = .error (.raised (.ofNative e)) s₁ := by
  have hlibrary : runLibrary g th args s₁ = .error (.raised (.ofNative e)) s₁ := by
    simp only [runLibrary, hfail]
  cases place with
  | none => exact hlibrary
  | some p => exact hlibrary

end Entered

/-! ## Commands that pass an error on -/

/-- Whether a body goes on after the reply to one of its commands. -/
def goesOn (c : Command) : Reply → Bool
  | .failed _ => c.modifiers.attempt
  | .listing _ =>
    match c.action with
    | .ret _ => false
    | _ => true
  | _ => true

/-- Log a command unless it was left out. -/
def logPerformed (here : Surroundings) (c : Command) : Reply → Exec Unit
  | .skipped => return ()
  | reply => logCommand here c reply

/-- A body performs its commands up to one of them. -/
inductive Reaches (performOne : Command → Exec Reply) (here : Surroundings) :
    List Command → Session → Command → Session → Prop
  | first {c : Command} {rest : List Command} {s : Session} :
      Reaches performOne here (c :: rest) s c s
  | later {c d : Command} {rest : List Command} {reply : Reply} {s s₁ s₂ s₃ : Session}
      (performed : performOne c s = .ok reply s₁) (logged : logPerformed here c reply s₁ = .ok () s₂)
      (continues : goesOn c reply = true) (reached : Reaches performOne here rest s₂ d s₃) :
      Reaches performOne here (c :: rest) s d s₃

/-- The call that a command makes, if it makes one. -/
def callMade? (here : Surroundings) (c : Command) (s : Session) :
    Option (FunctionId × List Value) :=
  match c.action with
  | .call f args => ((s.evalTerm here f).toFunction?).map fun g => (g, args.map (s.evalTerm here))
  | .callLibrary name args =>
    ((s.evalTerm here (.library name)).toFunction?).map fun g => (g, args.map (s.evalTerm here))
  | _ => none

/-- A command is performed for its thread, and calls a function. -/
structure Makes (here : Surroundings) (c : Command) (s : Session) (g : FunctionId)
    (args : List Value) : Prop where
  thread : (s.machine.thread? (targetThread here c)).isSome
  performed : isSkipped s.machine (targetThread here c) c = false
  call : callMade? here c s = some (g, args)

section Commands

variable {runner : Runner} {here : Surroundings} {c : Command} {s s' : Session} {h : Halt}
  {g : FunctionId} {args : List Value} {e : ScriptError}

theorem function_of_toFunction? {t : Term} (hg : (s.evalTerm here t).toFunction? = some g) :
    function here t s = .ok g s := by
  cases hv : s.evalTerm here t with
  | function f =>
      rw [hv] at hg
      cases hg
      exact function_of_function hv
  | _ =>
      rw [hv] at hg
      cases hg

/-- An action that makes a call fails with it. -/
theorem performAction_of_failed_call {th : ThreadId} (hmade : callMade? here c s = some (g, args))
    (hcall : runner.call th g args s = .error h s') :
    performAction runner here th c.action s = .error h s' := by
  unfold callMade? at hmade
  cases ha : c.action with
  | call f terms =>
      rw [ha] at hmade
      obtain ⟨g', hg, heq⟩ := Option.map_eq_some_iff.mp hmade
      cases heq
      rw [performAction, bind_eq_of_ok (function_of_toFunction? hg)]
      exact bind_eq_of_error hcall _
  | callLibrary name terms =>
      rw [ha] at hmade
      obtain ⟨g', hg, heq⟩ := Option.map_eq_some_iff.mp hmade
      cases heq
      rw [performAction, bind_eq_of_ok (function_of_toFunction? hg)]
      exact bind_eq_of_error hcall _
  | _ =>
      rw [ha] at hmade
      cases hmade

theorem perform_of_failed_call (hmakes : Makes here c s g args)
    (hcall : runner.call (targetThread here c) g args s = .error (.raised e) s') :
    perform runner here c s = .ok (.failed e) s' := by
  have hthread : ¬ (s.machine.thread? (targetThread here c)).isNone = true := by
    rw [← Option.not_isSome, hmakes.thread]
    simp
  have hskipped : ¬ isSkipped s.machine (targetThread here c) c = true := by
    simp [hmakes.performed]
  have haction := performAction_of_failed_call hmakes.call hcall
  rw [perform, bind_eq_of_ok (x := machine) rfl, if_neg hthread, if_neg hskipped,
    bind_eq_of_ok (attempt_eq_of_error haction)]
  rfl

theorem runCommands_of_goesOn {performOne : Command → Exec Reply} {rest : List Command}
    {reply : Reply} {s₁ s₂ : Session} (hperformed : performOne c s = .ok reply s₁)
    (hlogged : logPerformed here c reply s₁ = .ok () s₂) (hgoes : goesOn c reply = true) :
    runCommands performOne here (c :: rest) s = runCommands performOne here rest s₂ := by
  rw [runCommands, bind_eq_of_ok hperformed]
  cases reply with
  | skipped =>
      cases hlogged
      rfl
  | failed e =>
      refine (bind_eq_of_ok hlogged _).trans ?_
      simp only [show c.modifiers.attempt = true from hgoes]
      rfl
  | listing vs =>
      refine (bind_eq_of_ok hlogged _).trans ?_
      unfold goesOn at hgoes
      cases hc : c.action with
      | ret terms =>
          rw [hc] at hgoes
          cases hgoes
      | _ => rfl
  | _ => exact bind_eq_of_ok hlogged _

theorem runCommands_of_failed {performOne : Command → Exec Reply} {rest : List Command}
    (hfailed : performOne c s = .ok (.failed e) s') (hattempt : c.modifiers.attempt = false) :
    ∃ s₂, runCommands performOne here (c :: rest) s = .error (.raised e) s₂ := by
  refine ⟨(logCommand here c (.failed e)).final s', ?_⟩
  rw [runCommands, bind_eq_of_ok hfailed]
  refine (bind_eq_of_ok (x := logCommand here c (.failed e)) rfl _).trans ?_
  simp only [hattempt]
  rfl

/-- A body that comes to a failing command which it does not attempt fails with it. -/
theorem Reaches.runCommands_of_failed {performOne : Command → Exec Reply} {cs : List Command}
    {s₁ : Session} (hreached : Reaches performOne here cs s₁ c s)
    (hfailed : performOne c s = .ok (.failed e) s') (hattempt : c.modifiers.attempt = false) :
    ∃ s₂, runCommands performOne here cs s₁ = .error (.raised e) s₂ := by
  induction hreached with
  | first => exact Exec.runCommands_of_failed hfailed hattempt
  | later performed logged continues _ ih =>
      rw [runCommands_of_goesOn performed logged continues]
      exact ih hfailed hattempt

end Commands

/-! ## Chains of calls -/

/-- A call fails because a function that it leads to raises an error, and no function on the
way attempts the call of the next one. -/
inductive RaisedWithin (e : ScriptError) :
    Nat → ThreadId → FunctionId → List Value → Session → Prop
  /-- The function is not even entered: its hook raises, or nothing can execute it. -/
  | refused {n : Nat} {th : ThreadId} {f : FunctionId} {o : FunctionObject} {args : List Value}
      {s s₁ : Session} (found : s.machine.store.function? f = some o)
      (refused : entering (call n) f o.callable th args s = .error (.raised e) s₁) :
      RaisedWithin e (n + 1) th f args s
  /-- The body of the function raises. -/
  | body {n : Nat} {th : ThreadId} {f : FunctionId} {callable : Callable} {label : String}
      {cs : List Command} {args : List Value} {place : Place} {s s₁ s₂ : Session}
      (found : s.machine.store.function? f = some ⟨callable, .scripted label cs⟩)
      (entered : entering (call n) f callable th args s = .ok place s₁)
      (raises : Exec.body n (place.surroundings th label args) cs s₁ = .error (.raised e) s₂) :
      RaisedWithin e (n + 1) th f args s
  /-- The function is one of the library and fails. -/
  | library {n : Nat} {th : ThreadId} {f : FunctionId} {callable : Callable}
      {g : LibraryFunction} {failure : NativeError} {args : List Value} {place : Place}
      {s s₁ : Session} (found : s.machine.store.function? f = some ⟨callable, .library g⟩)
      (entered : entering (call n) f callable th args s = .ok place s₁)
      (fails : g.run s₁.machine th args = .error failure) (error : e = .ofNative failure) :
      RaisedWithin e (n + 1) th f args s
  /-- A command of the body calls a function within which the error is raised. -/
  | passed {n : Nat} {th : ThreadId} {f g : FunctionId} {callable : Callable} {label : String}
      {c : Command} {cs : List Command} {args args' : List Value} {place : Place}
      {s s₁ s₂ : Session}
      (found : s.machine.store.function? f = some ⟨callable, .scripted label cs⟩)
      (entered : entering (call (n + 1)) f callable th args s = .ok place s₁)
      (reached : Reaches (perform (runner n) (place.surroundings th label args))
        (place.surroundings th label args) cs s₁ c s₂)
      (makes : Makes (place.surroundings th label args) c s₂ g args')
      (unattempted : c.modifiers.attempt = false)
      (within : RaisedWithin e n (targetThread (place.surroundings th label args) c) g args' s₂) :
      RaisedWithin e (n + 2) th f args s

/-- The outermost call of a chain fails, with an error that carries the one raised. -/
theorem RaisedWithin.call_fails {e : ScriptError} {n : Nat} {th : ThreadId} {f : FunctionId}
    {args : List Value} {s : Session} (h : RaisedWithin e n th f args s) :
    ∃ e' s', call n th f args s = .error (.raised e') s' ∧ e.Carries e' := by
  induction h with
  | refused found refused =>
      obtain ⟨s', hcall⟩ := call_of_refused found refused
      exact ⟨e, s', hcall, .refl e⟩
  | body found entered raises =>
      obtain ⟨e', hroutine, hcarries⟩ := runEntered_of_failed_body raises
      obtain ⟨s', hcall⟩ := call_of_failed found entered hroutine
      exact ⟨e', s', hcall, hcarries⟩
  | library found entered fails error =>
      obtain ⟨s', hcall⟩ := call_of_failed found entered (runEntered_of_failed_library fails)
      exact ⟨e, s', error ▸ hcall, .refl e⟩
  | @passed n th f g callable label c cs args args' place s s₁ s₂ found entered reached makes
      unattempted _ ih =>
      obtain ⟨e₁, s₃, hinner, hcarries⟩ := ih
      have hfailed : perform (runner n) _ c s₂ = .ok (.failed e₁) s₃ :=
        perform_of_failed_call makes hinner
      obtain ⟨s₄, hbody⟩ : ∃ s₄, Exec.body (n + 1) (place.surroundings th label args) cs s₁ =
          .error (.raised e₁) s₄ := reached.runCommands_of_failed hfailed unattempted
      obtain ⟨e₂, hroutine, hcarries'⟩ := runEntered_of_failed_body hbody
      obtain ⟨s', hcall⟩ := call_of_failed found entered hroutine
      exact ⟨e₂, s', hcall, hcarries.trans hcarries'⟩

/-- An error that leaves a chain of calls shows the value and the text of the one raised, and
a raised value comes out as itself.  To cross the boundary of a native function changes
neither value nor text, and to cross it again changes nothing. -/
theorem raised_error_keeps_value (e : ScriptError) :
    (∀ (n : Nat) (th : ThreadId) (f : FunctionId) (args : List Value) (s : Session),
      RaisedWithin e n th f args s → ∃ e' s', call n th f args s = .error (.raised e') s' ∧
        e'.toValue = e.toValue ∧ e'.text = e.text ∧ ∀ v, e = .value v → e' = .value v) ∧
    e.crossed.toValue = e.toValue ∧ e.crossed.text = e.text ∧ e.crossed.crossed = e.crossed := by
  refine ⟨fun n th f args s h => ?_, e.toValue_crossed, e.text_crossed, e.crossed_crossed⟩
  obtain ⟨e', s', hcall, hcarries⟩ := h.call_fails
  exact ⟨e', s', hcall, hcarries.toValue, hcarries.text, hcarries.value⟩

/-- A native function that calls a script function, which calls a native function that raises
a table; the hook of the thread fails at every return. -/
def raisingSession : Session :=
  let plain : Modifiers := ⟨none, none, none, false⟩
  let calling (f : FunctionId) : Routine :=
    .scripted "calling" [.mk plain (.call (.value (.function f)) [])]
  let hook : FunctionObject :=
    ⟨.native "hook", .scripted "hook" [.mk plain (.raise (.runtime "in the hook"))]⟩
  let inner : FunctionObject :=
    ⟨.native "inner", .scripted "inner" [.mk plain (.raise (.value (.value (.table ⟨0⟩))))]⟩
  let middle : FunctionObject :=
    ⟨.script ⟨none, 0, 0, 0, false, 0, #[], #[], #[], [], #[]⟩ #[], calling ⟨1⟩⟩
  let outer : FunctionObject := ⟨.native "outer", calling ⟨2⟩⟩
  let start := Session.start ⟨[], .default, false, true⟩
  { start with machine := { start.machine with
      store := { start.machine.store with functions := #[hook, inner, middle, outer] }
      threads := #[⟨none, ⟨some ⟨0⟩, ⟨false, false, true⟩, 0, 0, false, none⟩⟩] } }

/-- The table comes out of the outermost of the three calls. -/
theorem raised_table_leaves_calls :
    RaisedWithin (.value (.table ⟨0⟩)) 6 Machine.mainThread ⟨3⟩ [] raisingSession ∧
      ∃ s', call 6 Machine.mainThread ⟨3⟩ [] raisingSession =
        .error (.raised (.value (.table ⟨0⟩))) s' := by
  have hinner : RaisedWithin (.value (.table ⟨0⟩)) 6 Machine.mainThread ⟨3⟩ [] raisingSession := by
    refine .passed rfl rfl .first ⟨by decide +kernel, by decide +kernel, rfl⟩ rfl ?_
    refine .passed rfl rfl .first ⟨by decide +kernel, by decide +kernel, rfl⟩ rfl ?_
    exact .body rfl rfl rfl
  obtain ⟨e', s', hcall, -, -, hvalue⟩ := (raised_error_keeps_value _).1 6 _ _ _ _ hinner
  exact ⟨hinner, s', hvalue _ rfl ▸ hcall⟩

end Exec

end ScriptDebug
