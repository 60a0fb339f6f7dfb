import ScriptDebug.Failure
import ScriptDebug.Machine.Reflection

/-!
# Replies

What performing a command answers, and the reports that a session is made of.
-/

namespace ScriptDebug

/-- The state of a thread as reports show it.  Without a call stack there is
neither depth nor capacity. -/
structure ThreadReport where
  depth : Option Nat
  capacity : Option Nat
  line : Option Nat
  inHook : Bool
  mask : String
  count : Nat
  counter : Nat
  lastLine : Option Nat
  function : Option FunctionId

/-- One call as reports show it. -/
structure FrameReport where
  callee : FunctionId
  pc : Nat
  top : Nat
  varargCount : Nat
  windowSize : Option Nat
  line : Option Nat
  isNative : Bool
  firstLocal : Option String

/-- How entering a hook twice and leaving it went. -/
structure GuardReport where
  firstEntered : Bool
  secondEntered : Bool
  inside : Bool
  after : Bool

inductive Reply where
  | done
  | skipped
  | noThread
  | absent
  | flag (b : Bool)
  | number (n : Nat)
  | text (s : String)
  | optionalName (name : Option String)
  | optionalIndex (i : Option Nat)
  | value (v : Value)
  | content (v : Value)
  | extent (size : Nat)
  | results (vs : List Value)
  | listing (vs : List Value)
  | described (vs : List Value) (fields : List (String × Value)) (lines : Option (List Value))
  | functionText (text : String) (isNative : Bool)
  | keyError (e : KeyError)
  | info (info : Option SelectedInfo)
  | binding (b : Option (String × Value))
  | hook (function : Option FunctionId) (mask : String) (count : Nat)
  | metatables (slots : List (Option TableId))
  | frame (r : Option FrameReport)
  | found (level : Option (Nat × Nat))
  | levels (calls : List (Nat × FunctionId × Nat))
  | guard (r : GuardReport)
  | state (r : ThreadReport)
  | replies (rs : List Reply)
  | failed (e : ScriptError)
  | nativeFailed (e : NativeError)
  deriving Inhabited

/-- The value that a variable takes from a reply; nil for replies without one. -/
def Reply.toValue : Reply → Value
  | value v => v
  | results vs | described vs _ _ => vs.headD .nil
  | binding (some (_, v)) => v
  | _ => .nil

/-- A command performed by a function body: where, what, with which reply, and
the state of the body's thread afterwards. -/
structure LogEntry where
  label : String
  keyword : String
  reply : Reply
  depth : Nat
  inHook : Bool
  deriving Inhabited

/-- One command of a session with all that it caused. -/
structure StepReport where
  reply : Reply
  state : ThreadReport
  log : List LogEntry
  trace : List TraceEvent
  journal : List HookRecord

/-- The present state of a thread. -/
def Machine.threadReport (m : Machine) (th : ThreadId) : ThreadReport :=
  let t := m.thread th
  { depth := t.stack.map (·.depth)
    capacity := t.stack.map (·.capacity)
    line := (t.frame? 1).bind fun fr => fr.line? m.store
    inHook := t.hook.inHook
    mask := t.hook.mask.text
    count := t.hook.count
    counter := t.hook.counter
    lastLine := t.hook.lastLine
    function := t.hook.function }

/-- One call of a thread. -/
def Machine.frameReport? (m : Machine) (th : ThreadId) (level : Int) : Option FrameReport :=
  ((m.calls th).frame? level).map fun fr =>
    { callee := fr.callee
      pc := fr.pc
      top := fr.top
      varargCount := fr.varargs.length
      windowSize := fr.window.map m.store.windowSize
      line := fr.line? m.store
      isNative := m.store.isNative fr.callee
      firstLocal := fr.localName? m.store 1 }

end ScriptDebug
