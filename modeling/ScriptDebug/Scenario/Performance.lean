import ScriptDebug.Scenario.Inspection
import ScriptDebug.Scenario.Invocation
import ScriptDebug.Scenario.Objects

/-!
# Performing commands

Performs the action of a command for a thread.  A command that fails answers
with its error; what becomes of the error is for the surrounding body to decide.

## Implementation notes

Running functions, bodies and blocks of commands is a parameter (`Runner`), so
nothing here recurses.
-/

namespace ScriptDebug

/-- What performing a command may run in turn. -/
structure Runner where
  call : Caller
  body : BodyRunner
  /-- Run commands for their replies, going on after errors. -/
  block : Surroundings → List Command → Exec (List Reply)

namespace Exec

/-- Report to a thread what its innermost call does. -/
def performNotification (call : Caller) (here : Surroundings) (th : ThreadId) :
    Notification → Exec Unit
  | .call f => do
    let f ← function here f
    enter call th (.bare f)
  | .scriptCall f w vs => do
    let f ← function here f
    let w ← window here w
    let vs ← varargs here vs
    enter call th (.script f vs w ((← machine).store.windowSize w))
  | .instruction pc top vs => do
    let vs ← varargs here vs
    step call th pc vs top
  | .ownInstruction pc top => do
    let store := (← machine).store
    step call th pc here.varargs (top.getD ((here.window.map store.windowSize).getD 0))
  | .ret => leave call th
  | .unwind depth => onMachine (·.unwindTo th depth)

/-- Create a function under a label. -/
def newFunction (label : String) (callable : Callable) (body : List Command) : Exec Reply := do
  let f ← fromStore (·.newFunction ⟨callable, .scripted label body⟩)
  modify (·.bindFunction label f)
  return .value (.function f)

/-- The results of a library function; a description comes with its fields. -/
def libraryReply (name : String) (vs : List Value) : Exec Reply := do
  match vs.head? with
  | some (.table t) =>
    if name = LibraryFunction.getInfo.name then
      let store := (← machine).store
      let fields := SelectedInfo.fieldNames.filterMap fun key =>
        match store.field t key with
        | .nil => none
        | v => some (key, v)
      let lines := do
        let list ← (store.field t SelectedInfo.activeLinesKey).toTable?
        let list ← store.table? list
        return (List.range list.length).map fun (i : Nat) => list.getIndex (i + 1)
      return .described vs fields lines
    else
      return .results vs
  | _ => return .results vs

/-- Run the routine of a native function without a call, for any thread.  Its
results, unlike those of a call, count as no value. -/
def direct (run : BodyRunner) (f : FunctionId) (th : ThreadId) (args : List Value) :
    Exec Reply := do
  match (← machine).store.function? f with
  | some ⟨.native _, .library g⟩ =>
    match g.run (← machine) th args with
    | .ok (vs, m) => do
      onMachine fun _ => m
      return .listing vs
    | .error e => return .nativeFailed e
  | some ⟨.native _, .scripted label body⟩ =>
    match ← attempt (run ⟨th, label, args, [], none⟩ body) with
    | .ok vs => return .listing vs
    | .error (.raised e) => return .nativeFailed (.ofScript e)
    | .error .tooDeep => throw .tooDeep
  | _ => raise (.runtime "not a native function")

/-- Run a block of commands several times for the replies of the last round. -/
def repeatBlock (block : Exec (List Reply)) : Nat → List Reply → Exec (List Reply)
  | 0, last => return last
  | n + 1, _ => do
    let replies ← block
    repeatBlock block n replies

/-- Perform an action for a thread. -/
def performAction (runner : Runner) (here : Surroundings) (th : ThreadId) : Action → Exec Reply
  | .object a => performObject here a
  | .inspect a => performInspection here th a
  | .notify a => do
    performNotification runner.call here th a
    return .done
  | .newClosure label prototype cells body => do
    match (← get).prototypes.lookup prototype with
    | some p => newFunction label (.script p cells.toArray) body
    | none => raise (.runtime "no such prototype")
  | .newNative label name body => newFunction label (.native name) body
  | .call f args => do
    let f ← function here f
    let args ← values here args
    return .results (← runner.call th f args)
  | .callLibrary name args => do
    let f ← function here (.library name)
    let args ← values here args
    libraryReply name (← runner.call th f args)
  | .callDirectly f args id => do
    let f ← function here f
    let args ← values here args
    direct runner.body f id args
  | .repeatBlock n body => return .replies (← repeatBlock (runner.block here body) n [])
  | .args => return .listing here.args
  | .ret vs => return .listing (← values here vs)
  | .raise (.runtime text) => raise (.runtime text)
  | .raise (.badArgument position function complaint) =>
    raise (.badArgument position function complaint)
  | .raise (.value v) => do raise (.value (← value here v))

/-- The thread that a command is for. -/
def targetThread (here : Surroundings) (c : Command) : ThreadId :=
  c.modifiers.thread.getD here.thread

/-- Whether a command is to be left out because its thread is deep enough. -/
def isSkipped (m : Machine) (th : ThreadId) (c : Command) : Bool :=
  match c.modifiers.below with
  | some limit => limit ≤ m.depth th
  | none => false

/-- Perform a command; an error becomes the reply. -/
def perform (runner : Runner) (here : Surroundings) (c : Command) : Exec Reply := do
  let th := targetThread here c
  let m ← machine
  if (m.thread? th).isNone then
    return .noThread
  else if isSkipped m th c then
    return .skipped
  else
    match ← attempt (performAction runner here th c.action) with
    | .ok reply =>
      match c.modifiers.storeAs with
      | some name => do
        modify (·.bindVariable name reply.toValue)
        return reply
      | none => return reply
    | .error (.raised e) => return .failed e
    | .error .tooDeep => throw .tooDeep

end Exec

end ScriptDebug
