import ScriptDebug.Config.Settings
import ScriptDebug.Store.Basic
import ScriptDebug.Thread.Basic

/-!
# The machine

The state shared by running code and the debug interface: objects, threads,
metatables of whole kinds and the settings.  Every machine has a registry table,
which holds the main thread and the table of globals.
-/

namespace ScriptDebug

/-- The state of the machine at one instruction, recorded in trace mode. -/
structure TraceEvent where
  thread : ThreadId
  source : String
  line : Option Nat
  pc : Nat
  instruction : String
  registers : String
  deriving DecidableEq, Inhabited

/-- One event as it is handed to a hook function, with the hook and the number
of calls that the thread has at that moment. -/
structure Delivery where
  thread : ThreadId
  function : FunctionId
  event : HookEvent
  hook : Hook
  depth : Nat
  deriving DecidableEq, Inhabited

/-- What the journal of hooks tells: a thread got another hook, or an event is
delivered. -/
inductive HookRecord where
  | installed (thread : ThreadId) (hook : Hook)
  | delivered (d : Delivery)
  deriving DecidableEq, Inhabited

/-- The metatables of the kinds whose values have none of their own. -/
structure KindMetatables where
  nil : Option TableId := none
  boolean : Option TableId := none
  number : Option TableId := none
  string : Option TableId := none
  function : Option TableId := none
  thread : Option TableId := none
  lightUserdata : Option TableId := none
  deriving DecidableEq, Inhabited

namespace KindMetatables

def empty : KindMetatables := {}

/-- How the metatable of a kind is assigned; nothing for kinds whose values have their own. -/
def slot? (m : KindMetatables) : ValueKind → Option (Option TableId → KindMetatables)
  | .nil => some ({ m with nil := · })
  | .boolean => some ({ m with boolean := · })
  | .number => some ({ m with number := · })
  | .string => some ({ m with string := · })
  | .function => some ({ m with function := · })
  | .thread => some ({ m with thread := · })
  | .lightUserdata => some ({ m with lightUserdata := · })
  | .table | .userdata => none

def get (m : KindMetatables) : ValueKind → Option TableId
  | .nil => m.nil
  | .boolean => m.boolean
  | .number => m.number
  | .string => m.string
  | .function => m.function
  | .thread => m.thread
  | .lightUserdata => m.lightUserdata
  | .table | .userdata => none

/-- Set the metatable of a kind; `false` for kinds whose values have their own. -/
def set (m : KindMetatables) (k : ValueKind) (mt : Option TableId) : KindMetatables × Bool :=
  match m.slot? k with
  | some assign => (assign mt, true)
  | none => (m, false)

end KindMetatables

structure Machine where
  store : Store
  kindMetatables : KindMetatables
  threads : Array Thread
  /-- Whether script functions can be executed. -/
  hasInterpreter : Bool
  settings : Settings
  /-- Recorded instructions, in order. -/
  trace : Array TraceEvent
  /-- Installed hooks and delivered events, in order. -/
  journal : Array HookRecord
  deriving Inhabited

namespace Machine

def mainThread : ThreadId := ⟨0⟩

def registry : TableId := ⟨0⟩

def globals : TableId := ⟨1⟩

/-- The registry slot of the main thread. -/
def registryMainThread : Int := 1

/-- The registry slot of the table of globals. -/
def registryGlobals : Int := 2

/-- A machine with one thread, its registry and an empty table of globals. -/
def new (settings : Settings) (hasInterpreter : Bool) : Machine :=
  let (store, registry) := Store.empty.newTable
  let (store, globals) := store.newTable
  let store := store.modifyTable registry fun t =>
    (t.setIndex registryMainThread (.thread mainThread)).setIndex registryGlobals (.table globals)
  { store
    kindMetatables := .empty
    threads := #[Thread.new]
    hasInterpreter
    settings
    trace := #[]
    journal := #[] }

def thread? (m : Machine) (th : ThreadId) : Option Thread := m.threads[th.index]?

def thread (m : Machine) (th : ThreadId) : Thread := (m.thread? th).getD .new

/-- The thread that reports show for an identifier: the main thread if there is
no such thread. -/
def reportedThread (m : Machine) (th : ThreadId) : ThreadId :=
  if (m.thread? th).isSome then th else mainThread

def setThread (m : Machine) (th : ThreadId) (t : Thread) : Machine :=
  { m with threads := m.threads.setIfInBounds th.index t }

def newThread (m : Machine) : Machine × ThreadId :=
  ({ m with threads := m.threads.push .new }, ⟨m.threads.size⟩)

def calls (m : Machine) (th : ThreadId) : CallStack := (m.thread th).calls

def depth (m : Machine) (th : ThreadId) : Nat := (m.thread th).depth

/-- Set the metatable of a kind of values; `false` for kinds whose values have their own. -/
def setKindMetatable (m : Machine) (k : ValueKind) (mt : Option TableId) : Machine × Bool :=
  let (kindMetatables, assigned) := m.kindMetatables.set k mt
  ({ m with kindMetatables }, assigned)

/-- The text of the machine for a reader. -/
def text (m : Machine) : String :=
  "Vm \x7b registry: #" ++ registry.index.repr ++ ", globals: #" ++ globals.index.repr ++
    ", threads: " ++ m.threads.size.repr ++
    ", config: DebugConfig \x7b trace: " ++ (if m.settings.trace then "true" else "false") ++
    ", source_id_size: " ++ m.settings.sourceSize.repr ++ " \x7d, .. \x7d"

end Machine

end ScriptDebug
