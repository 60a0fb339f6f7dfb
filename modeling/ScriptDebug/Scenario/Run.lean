import ScriptDebug.Scenario.Performance

/-!
# Running bodies and sessions

A body performs its commands one after the other and logs each; it ends with a
return, with the first error that is not attempted, or after its last command.
A session performs commands outside all bodies and reports on each.

## Implementation notes

Calls and blocks nest without a bound of their own, so running takes the allowed
nesting as an argument.  Sessions allow more than a run can need.
-/

namespace ScriptDebug

namespace Exec

/-- Log a command that a body has performed. -/
def logCommand (here : Surroundings) (c : Command) (reply : Reply) : Exec Unit :=
  modify fun s =>
    let t := s.machine.thread (s.machine.reportedThread here.thread)
    let entry : LogEntry := ⟨here.label, c.action.keyword, reply, t.depth, t.hook.inHook⟩
    { s with log := s.log.push entry }

/-- Run the commands of a body up to a return or an error. -/
def runCommands (performOne : Command → Exec Reply) (here : Surroundings) :
    List Command → Exec (List Value)
  | [] => return []
  | c :: rest => do
    match ← performOne c with
    | .skipped => runCommands performOne here rest
    | reply => do
      logCommand here c reply
      match reply, c.action with
      | .failed e, _ =>
        if c.modifiers.attempt then runCommands performOne here rest else raise e
      | .listing vs, .ret _ => return vs
      | _, _ => runCommands performOne here rest

/-- Perform commands for their replies. -/
def performAll (performOne : Command → Exec Reply) : List Command → Exec (List Reply)
  | [] => return []
  | c :: rest => do
    let reply ← performOne c
    return reply :: (← performAll performOne rest)

mutual

/-- Call a function with at most `nesting` calls and blocks inside each other. -/
def call (nesting : Nat) : Caller := fun th f args =>
  match nesting with
  | 0 => throw .tooDeep
  | n + 1 => invoke (call n) (body n) th f args

/-- Run a body with at most `nesting` calls and blocks inside each other. -/
def body (nesting : Nat) : BodyRunner := fun here cs =>
  match nesting with
  | 0 => throw .tooDeep
  | n + 1 => runCommands (perform ⟨call n, body n, block n⟩ here) here cs

/-- Perform a block with at most `nesting` calls and blocks inside each other. -/
def block (nesting : Nat) (here : Surroundings) (cs : List Command) : Exec (List Reply) :=
  match nesting with
  | 0 => throw .tooDeep
  | n + 1 => performAll (perform ⟨call n, body n, block n⟩ here) cs

end

/-- What commands may run with at most `nesting` calls and blocks inside each other. -/
def runner (nesting : Nat) : Runner := ⟨call nesting, body nesting, block nesting⟩

theorem call_succ (n : Nat) : call (n + 1) = invoke (call n) (body n) := rfl

theorem body_succ (n : Nat) (here : Surroundings) (cs : List Command) :
    body (n + 1) here cs = runCommands (perform (runner n) here) here cs := rfl

theorem block_succ (n : Nat) (here : Surroundings) (cs : List Command) :
    block (n + 1) here cs = performAll (perform (runner n) here) cs := rfl

end Exec

/-- The nesting that sessions allow for. -/
def sessionNesting : Nat := 1000000

/-- What a session starts from. -/
structure SessionSetup where
  prototypes : List (String × Prototype)
  settings : Settings
  hasLibrary : Bool
  hasInterpreter : Bool

namespace Session

def start (setup : SessionSetup) : Session :=
  let machine := Machine.new setup.settings setup.hasInterpreter
  { machine := if setup.hasLibrary then machine.registerLibrary.1 else machine
    prototypes := setup.prototypes
    functions := []
    windows := []
    bindings := []
    log := #[] }

/-- Forget what has been logged and recorded. -/
def clearRecords (s : Session) : Session :=
  { s with log := #[], machine := { s.machine with trace := #[], journal := #[] } }

/-- Perform one command outside all bodies and report on it. -/
def step (s : Session) (c : Command) : Option (StepReport × Session) :=
  match Exec.perform (Exec.runner sessionNesting) .outermost c s.clearRecords with
  | .ok reply s =>
    some
      ({ reply
         state := s.machine.threadReport
           (s.machine.reportedThread (Exec.targetThread .outermost c))
         log := s.log.toList
         trace := s.machine.trace.toList
         journal := s.machine.journal.toList }, s)
  | .error _ _ => none

/-- Perform commands in order: their reports and the session afterwards.  There
is no answer to a session that nests too deep. -/
def run (s : Session) : List Command → Option (List StepReport × Session)
  | [] => some ([], s)
  | c :: rest => do
    let (report, s) ← s.step c
    let (reports, s) ← s.run rest
    return (report :: reports, s)

end Session

end ScriptDebug
