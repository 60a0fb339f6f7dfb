import ScriptDebug.Scenario.Session

/-!
# Delivering hook events

A notification that calls for hook events is followed by calls of the hook
function, one per event, with the thread marked as inside its hook.  The mark is
removed on every way out.  Each event is entered in the journal at the moment of
its call.

## Implementation notes

How a function is called is a parameter here, so that notifications and calls
can be studied apart although each needs the other.
-/

namespace ScriptDebug

/-- A way to call a function on a thread. -/
abbrev Caller := ThreadId → FunctionId → List Value → Exec (List Value)

namespace Exec

/-- Run a computation with the thread marked as inside its hook; nothing happens
if it is inside already. -/
def whileInHook (th : ThreadId) (x : Exec Unit) : Exec Unit := do
  if ((← machine).hook th).inHook then
    return ()
  onMachine (·.setInHook th true)
  let outcome ← attempt x
  onMachine (·.setInHook th false)
  resume outcome

/-- Deliver events in order, up to the first failure. -/
def deliverAll (call : Caller) (th : ThreadId) (f : FunctionId) : List HookEvent → Exec Unit
  | [] => return ()
  | e :: rest => do
    onMachine (·.recordDelivery th f e)
    let _ ← call th f e.args
    deliverAll call th f rest

/-- Deliver what a notification called for. -/
def deliver (call : Caller) (th : ThreadId) : Option PendingEvents → Exec Unit
  | none => return ()
  | some pending => whileInHook th (deliverAll call th pending.function pending.events)

/-- Report a call and deliver its event. -/
def enter (call : Caller) (th : ThreadId) (fr : Frame) : Exec Unit := do
  deliver call th (← fromMachine (·.noteCall th fr))

/-- Report a return and deliver its event. -/
def leave (call : Caller) (th : ThreadId) : Exec Unit := do
  deliver call th (← fromMachine (·.noteReturn th))

/-- Report an instruction and deliver its events. -/
def step (call : Caller) (th : ThreadId) (pc : Nat) (varargs : List Value) (top : Nat) :
    Exec Unit := do
  deliver call th (← fromMachine (·.noteInstruction th pc varargs top))

end Exec

end ScriptDebug
