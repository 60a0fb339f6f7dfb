import ScriptDebug.Scenario.Delivery
import ScriptDebug.Scenario.Naming

/-!
# Calling functions

Native calls are shadowed on the call stack by the machine; script calls are
handed to the interpreter, which reports its own frame and gets a window of
registers.  A call that fails leaves the stack at the depth where it began, as
far as the callee has not left frames of its own.

## Implementation notes

How a body of commands runs is a parameter, like the way of calling hooks.
-/

namespace ScriptDebug

/-- A way to run a body of commands. -/
abbrev BodyRunner := Surroundings → List Command → Exec (List Value)

namespace Exec

/-- Run a library function. -/
def runLibrary (f : LibraryFunction) (th : ThreadId) (args : List Value) : Exec (List Value) :=
  fun s =>
    match f.run s.machine th args with
    | .ok (vs, m) => .ok vs { s with machine := m }
    | .error e => .error (.raised (.ofNative e)) s

/-- The error of a native body as its caller gets it. -/
def crossNative : Halt → Halt
  | .raised e => .raised (.ofNative (.ofScript e))
  | .tooDeep => .tooDeep

/-- Run the routine of a native function, its frame apart. -/
def runNative (run : BodyRunner) (routine : Routine) (th : ThreadId) (args : List Value) :
    Exec (List Value) :=
  match routine with
  | .library f => runLibrary f th args
  | .scripted label body => do
    match ← attempt (run ⟨th, label, args, [], none⟩ body) with
    | .ok vs => return vs
    | .error h => throw (crossNative h)

/-- The registers of a new script call: the parameters as far as they fit, then nil. -/
def initialRegisters (p : Prototype) (args : List Value) : Array Value :=
  let params := (args.take p.paramCount).take p.windowSize
  (params ++ List.replicate (p.windowSize - params.length) Value.nil).toArray

/-- Run the routine of a script function, its frame apart. -/
def runScript (run : BodyRunner) (routine : Routine) (th : ThreadId) (args varargs : List Value)
    (window : WindowId) : Exec (List Value) :=
  match routine with
  | .library f => runLibrary f th args
  | .scripted label body => run ⟨th, label, args, varargs, some window⟩ body

/-- Execute a script function with its frame. -/
def interpret (call : Caller) (run : BodyRunner) (f : FunctionId) (p : Prototype)
    (routine : Routine) (th : ThreadId) (args : List Value) : Exec (List Value) := do
  let window ← fromStore (·.newWindow (initialRegisters p args))
  let varargs := if p.isVararg then args.drop p.paramCount else []
  enter call th (.script f varargs window p.windowSize)
  let vs ← runScript run routine th args varargs window
  leave call th
  return vs

/-- Call a native function: report it, run it, and report its return even if it
failed.  Its own failure comes before one of the return event. -/
def callNative (call : Caller) (run : BodyRunner) (f : FunctionId) (routine : Routine)
    (th : ThreadId) (args : List Value) : Exec (List Value) := do
  let depth := (← machine).depth th
  match ← attempt (enter call th (.bare f)) with
  | .error h =>
    onMachine (·.unwindTo th depth)
    throw h
  | .ok () =>
    let result ← attempt (runNative run routine th args)
    let returned ← attempt (leave call th)
    let vs ← resume result
    resume returned
    return vs

/-- Run a computation; if it fails, the calls of a thread above a depth are dropped. -/
def orUnwind {α : Type} (th : ThreadId) (depth : Nat) (x : Exec α) : Exec α := do
  match ← attempt x with
  | .error h =>
    onMachine (·.unwindTo th depth)
    throw h
  | .ok a => return a

/-- Call a script function; if it fails, the frames it left are dropped. -/
def callScript (call : Caller) (run : BodyRunner) (f : FunctionId) (p : Prototype)
    (routine : Routine) (th : ThreadId) (args : List Value) : Exec (List Value) := do
  let m ← machine
  if m.hasInterpreter then
    orUnwind th (m.depth th) (interpret call run f p routine th args)
  else
    raise .noInterpreter

/-- Call a function on a thread. -/
def invoke (call : Caller) (run : BodyRunner) : Caller := fun th f args => do
  match (← machine).store.function? f with
  | some ⟨.native _, routine⟩ => callNative call run f routine th args
  | some ⟨.script p _, routine⟩ => callScript call run f p routine th args
  | none => raise (.runtime "attempt to call a missing function")

end Exec

end ScriptDebug
