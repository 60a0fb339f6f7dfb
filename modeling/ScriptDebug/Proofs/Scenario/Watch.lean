import ScriptDebug.Proofs.Scenario.Agreement
import ScriptDebug.Scenario.Run

/-!
# Runs under watch

A run under watch tests the machine before and after every call and every command,
however deep inside the run, and marks the log whenever the test fails.  A run that
equals the run under watch has passed all tests.

## Implementation notes

Computations only append to the log and never read it, so a mark neither changes what
follows nor gets lost.
-/

namespace ScriptDebug

namespace Exec

variable {α : Type} (ok : Machine → Prop) [DecidablePred ok] (mark : LogEntry)

/-- Mark the log if the machine fails a test. -/
def test : Exec Unit :=
  modify fun s => if ok s.machine then s else { s with log := s.log.push mark }

/-- Run a computation between two tests of the machine. -/
def watch (x : Exec α) : Exec α := do
  test ok mark
  let result ← attempt x
  test ok mark
  resume result

mutual

/-- Call a function with every call and every command under watch. -/
def watchedCall (nesting : Nat) : Caller := fun th f args =>
  match nesting with
  | 0 => watch ok mark (throw .tooDeep)
  | n + 1 => watch ok mark (invoke (watchedCall n) (watchedBody n) th f args)

/-- Run a body with every call and every command under watch. -/
def watchedBody (nesting : Nat) : BodyRunner := fun here cs =>
  match nesting with
  | 0 => throw .tooDeep
  | n + 1 =>
    runCommands
      (fun c => watch ok mark (perform ⟨watchedCall n, watchedBody n, watchedBlock n⟩ here c))
      here cs

/-- Perform a block with every call and every command under watch. -/
def watchedBlock (nesting : Nat) (here : Surroundings) (cs : List Command) :
    Exec (List Reply) :=
  match nesting with
  | 0 => throw .tooDeep
  | n + 1 =>
    performAll
      (fun c => watch ok mark (perform ⟨watchedCall n, watchedBody n, watchedBlock n⟩ here c)) cs

end

/-- What commands may run under watch. -/
def watchedRunner (nesting : Nat) : Runner :=
  ⟨watchedCall ok mark nesting, watchedBody ok mark nesting, watchedBlock ok mark nesting⟩

variable {ok} {I : Machine → Prop}

/-- A test shows whether it is passed: a machine that fails leaves a mark. -/
theorem test_eq_iff (s : Session) : Exec.test ok mark s = .ok () s ↔ ok s.machine := by
  have htest : Exec.test ok mark s =
      .ok () (if ok s.machine then s else { s with log := s.log.push mark }) := rfl
  rw [htest]
  constructor
  · intro heq
    injection heq with _ hsession
    split at hsession
    · assumption
    · have hsize := congrArg (·.log.size) hsession
      simp only [Array.size_push] at hsize
      omega
  · intro hok
    rw [if_pos hok]

/-- A test that an invariant passes does nothing. -/
theorem Agree.test (h : ∀ m, I m → ok m) :
    Agree I (Pure.pure ()) (Exec.test ok mark) := by
  intro s hs
  constructor
  · exact ((test_eq_iff mark s).mpr (h _ hs)).symm
  · exact hs

/-- Under watch a computation does the same where its invariant passes the test. -/
theorem Agree.watch (h : ∀ m, I m → ok m) {x y : Exec α} (hxy : Agree I x y) :
    Agree I x (Exec.watch ok mark y) := by
  have hplain : x = (do Pure.pure (); let r ← x.attempt; Pure.pure (); Exec.resume r) :=
    (attempt_resume x).symm
  rw [hplain]
  exact .bind (.test mark h) fun _ => .bind hxy.attempt fun r =>
    .bind (.test mark h) fun _ => .resume r

end Exec

end ScriptDebug
