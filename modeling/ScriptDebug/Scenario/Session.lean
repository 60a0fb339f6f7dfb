import ScriptDebug.Library.Call
import ScriptDebug.Machine.Notification
import ScriptDebug.Scenario.Reply

/-!
# Sessions

A machine together with the names that commands use for its objects and the log
of what function bodies did.  Everything that runs code is a computation on a
session that may halt.

## Implementation notes

A halt is either a script error or the end of the allowed nesting.  The latter
is no error of the script: it cannot be caught, and a run that ends in it has no
answer.
-/

namespace ScriptDebug

/-- Why a computation ended without a result. -/
inductive Halt where
  | raised (e : ScriptError)
  /-- Calls were nested deeper than allowed for. -/
  | tooDeep
  deriving Inhabited

structure Session where
  machine : Machine
  prototypes : List (String × Prototype)
  functions : List (String × FunctionId)
  windows : List (String × WindowId)
  bindings : List (String × Value)
  log : Array LogEntry
  deriving Inhabited

/-- Computations on a session. -/
abbrev Exec := EStateM Halt Session

namespace Exec

/-- Fail with a script error. -/
def raise {α : Type} (e : ScriptError) : Exec α := throw (.raised e)

/-- Run a computation and hand out how it ended; its effects stay. -/
def attempt {α : Type} (x : Exec α) : Exec (Except Halt α) := fun s =>
  match x s with
  | .ok a s => .ok (.ok a) s
  | .error h s => .ok (.error h) s

/-- End the way an attempt ended. -/
def resume {α : Type} : Except Halt α → Exec α
  | .ok a => pure a
  | .error h => throw h

def machine : Exec Machine := return (← get).machine

/-- Update the machine. -/
def onMachine (f : Machine → Machine) : Exec Unit :=
  modify fun s => { s with machine := f s.machine }

/-- Update the machine and answer. -/
def fromMachine {α : Type} (f : Machine → Machine × α) : Exec α := fun s =>
  let (m, a) := f s.machine
  .ok a { s with machine := m }

/-- Update the store and answer. -/
def fromStore {α : Type} (f : Store → Store × α) : Exec α :=
  fromMachine fun m =>
    let (store, a) := f m.store
    ({ m with store }, a)

/-- Take over a changed machine, or raise the error that prevented the change. -/
def adopt : Except ScriptError Machine → Exec Unit
  | .ok m => onMachine fun _ => m
  | .error e => raise e

theorem attempt_resume {α : Type} (x : Exec α) : (x.attempt >>= resume) = x := by
  funext s
  simp only [bind, EStateM.bind, attempt]
  cases x s <;> rfl

end Exec

end ScriptDebug
