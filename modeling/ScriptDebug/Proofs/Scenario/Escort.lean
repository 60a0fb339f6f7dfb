import ScriptDebug.Proofs.Scenario.Running

/-!
# Escorted runs

An escort does something around every call and every command of a run, however deep
inside: it can look at the machine, or refuse to go on.  Without an escort the escorted run
is the run itself.
-/

namespace ScriptDebug

namespace Exec

/-- What is done around the calls and the commands of a run. -/
structure Escort where
  call : ThreadId → FunctionId → Exec (List Value) → Exec (List Value)
  command : Surroundings → Command → Exec Reply → Exec Reply

mutual

/-- Call a function with every call and every command escorted. -/
def escortedCall (e : Escort) (nesting : Nat) : Caller := fun th f args =>
  match nesting with
  | 0 => throw .tooDeep
  | n + 1 => e.call th f (invoke (escortedCall e n) (escortedBody e n) th f args)

/-- Run a body with every call and every command escorted. -/
def escortedBody (e : Escort) (nesting : Nat) : BodyRunner := fun here cs =>
  match nesting with
  | 0 => throw .tooDeep
  | n + 1 =>
    runCommands
      (fun c => e.command here c
        (perform ⟨escortedCall e n, escortedBody e n, escortedBlock e n⟩ here c))
      here cs

/-- Perform a block with every call and every command escorted. -/
def escortedBlock (e : Escort) (nesting : Nat) (here : Surroundings) (cs : List Command) :
    Exec (List Reply) :=
  match nesting with
  | 0 => throw .tooDeep
  | n + 1 =>
    performAll
      (fun c => e.command here c
        (perform ⟨escortedCall e n, escortedBody e n, escortedBlock e n⟩ here c)) cs

end

/-- What commands may run under escort. -/
def escortedRunner (e : Escort) (nesting : Nat) : Runner :=
  ⟨escortedCall e nesting, escortedBody e nesting, escortedBlock e nesting⟩

/-- Nothing is done around anything. -/
def Escort.none : Escort := ⟨fun _ _ x => x, fun _ _ x => x⟩

theorem escortedRunner_none (n : Nat) : escortedRunner .none n = runner n := by
  induction n with
  | zero => rfl
  | succ n ih =>
      obtain ⟨hcall, hbody, hblock⟩ : escortedCall .none n = call n ∧
          escortedBody .none n = body n ∧ escortedBlock .none n = block n := by
        simpa only [escortedRunner, runner, Runner.mk.injEq] using ih
      have hcall' : escortedCall .none (n + 1) = call (n + 1) := by
        rw [call_succ, ← hcall, ← hbody]
        rfl
      have hbody' : escortedBody .none (n + 1) = body (n + 1) := by
        funext here cs
        rw [body_succ, ← ih]
        rfl
      have hblock' : escortedBlock .none (n + 1) = block (n + 1) := by
        funext here cs
        rw [block_succ, ← ih]
        rfl
      simp only [escortedRunner, runner, hcall', hbody', hblock']

variable {ι : Type} {P : Command → Prop} {F : ι → Machine → Prop} {Hosts : ι → ThreadId → Prop}

/-- An escort that does nothing under a family of invariants makes no difference to it. -/
theorem RunInvariant.escorted (h : RunInvariant P F Hosts) {e : Escort}
    (hcall : ∀ i th f {x y}, Agree (F i) x y → Agree (F i) x (e.call th f y))
    (hcommand : ∀ i here c {x y}, Agree (F i) x y → Agree (F i) x (e.command here c y)) (n : Nat) :
    CallsAgree F (call n) (escortedCall e n) ∧ CommandsAgree P F Hosts (body n) (escortedBody e n) ∧
      CommandsAgree P F Hosts (block n) (escortedBlock e n) := by
  induction n with
  | zero =>
      exact ⟨fun i th f args => .throw .tooDeep, fun i here cs _ _ => .throw .tooDeep,
        fun i here cs _ _ => .throw .tooDeep⟩
  | succ n ih =>
      obtain ⟨hcalls, hbodies, hblocks⟩ := ih
      have hone : ∀ i here (cs : List Command), Hosts i here.thread → (∀ c ∈ cs, c.Every P) →
          ∀ c ∈ cs, Agree (F i) (perform (runner n) here c)
            (e.command here c (perform (escortedRunner e n) here c)) :=
        fun i here cs hhost hcs c hc =>
          hcommand i here c (h.command hcalls hbodies hblocks hhost (hcs c hc))
      refine ⟨?_, ?_, ?_⟩
      · intro i th f args
        exact hcall i th f (h.invoke hcalls hbodies i th f args)
      · intro i here cs hhost hcs
        exact .runCommands here (hone i here cs hhost hcs)
      · intro i here cs hhost hcs
        exact .performAll (hone i here cs hhost hcs)

end Exec

end ScriptDebug
