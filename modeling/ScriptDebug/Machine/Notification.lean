import ScriptDebug.Bytecode.Disassembly
import ScriptDebug.Machine.Basic
import ScriptDebug.Reflection.Local
import ScriptDebug.Value.Text

/-!
# Notifications

Running code reports every call, instruction and return of a thread.  A
notification updates the thread and decides which hook events are to follow; in
trace mode an instruction is also recorded.
-/

namespace ScriptDebug

/-- Values between brackets, each as its text. -/
def registerListing (vs : List Value) : String :=
  "[" ++ String.intercalate ", " (vs.map (·.text)) ++ "]"

namespace Machine

/-- Replace a thread, passing on the events that follow. -/
def putThread (m : Machine) (th : ThreadId) (r : Thread × Option PendingEvents) :
    Machine × Option PendingEvents :=
  (m.setThread th r.1, r.2)

def noteCall (m : Machine) (th : ThreadId) (fr : Frame) : Machine × Option PendingEvents :=
  m.putThread th ((m.thread th).noteCall fr)

def noteReturn (m : Machine) (th : ThreadId) : Machine × Option PendingEvents :=
  m.putThread th (m.thread th).noteReturn

/-- The record of the instruction that the innermost call executes, if that is a
script call.  Only live registers are shown. -/
def traceEvent? (m : Machine) (th : ThreadId) : Option TraceEvent := do
  let fr ← (m.calls th).frame? 1
  let p ← fr.prototype? m.store
  let registers := match fr.window with
    | some w => (m.store.registers w).toList.take fr.top
    | none => []
  return {
    thread := th
    source := shortSource p.sourceName m.settings.sourceSize
    line := fr.line? m.store
    pc := fr.pc
    instruction := p.disassemble fr.pc
    registers := registerListing registers }

/-- Record the instruction of the innermost call when in trace mode. -/
def recordTrace (m : Machine) (th : ThreadId) : Machine :=
  if m.settings.trace then
    match m.traceEvent? th with
    | some e => { m with trace := m.trace.push e }
    | none => m
  else
    m

def noteInstruction (m : Machine) (th : ThreadId) (pc : Nat) (varargs : List Value) (top : Nat) :
    Machine × Option PendingEvents :=
  let t := m.thread th
  let (m', pending) :=
    m.putThread th (t.noteInstruction (fun fr => fr.line? m.store) pc varargs top)
  (if t.hook.inHook then m' else m'.recordTrace th, pending)

/-- Drop the calls above a depth; no events follow. -/
def unwindTo (m : Machine) (th : ThreadId) (depth : Nat) : Machine :=
  m.setThread th ((m.thread th).unwindTo depth)

/-- Enter in the journal that an event of a thread goes to a function. -/
def recordDelivery (m : Machine) (th : ThreadId) (f : FunctionId) (e : HookEvent) : Machine :=
  { m with journal := m.journal.push (.delivered ⟨th, f, e, (m.thread th).hook, m.depth th⟩) }

/-- Mark whether the hook of a thread is running. -/
def setInHook (m : Machine) (th : ThreadId) (b : Bool) : Machine :=
  let t := m.thread th
  m.setThread th { t with hook := { t.hook with inHook := b } }

end Machine

end ScriptDebug
