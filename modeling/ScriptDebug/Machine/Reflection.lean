import ScriptDebug.Failure
import ScriptDebug.Machine.Basic
import ScriptDebug.Reflection.Traceback

/-!
# The typed reflection interface

Inspection and change of running calls, functions, hooks and metatables.  What
is not there is answered by `none`; only misuse is an error.
-/

namespace ScriptDebug

/-- What `Machine.getInfo?` describes. -/
inductive InfoTarget where
  | level (n : Int)
  | function (f : FunctionId)
  deriving DecidableEq

/-- The name of an upvalue without debug information. -/
def anonymousUpvalue : String := "(*no name)"

namespace Machine

/-! ## Calls and their locals -/

/-- The groups of the description of a call or function that the letters ask for. -/
def getInfo? (m : Machine) (th : ThreadId) (target : InfoTarget) (what : String) :
    Option SelectedInfo :=
  let r := InfoRequest.ofString what
  let size := m.settings.sourceSize
  match target with
  | .level n => m.store.infoAtLevel? size (m.calls th) r n
  | .function f => some (m.store.infoOfFunction size (m.calls th) r f)

def getLocal? (m : Machine) (th : ThreadId) (level n : Int) : Option (String × Value) :=
  ((m.calls th).frame? level).bind fun fr => fr.getLocal? m.store n

/-- Assign a local: its name and the machine afterwards. -/
def setLocal? (m : Machine) (th : ThreadId) (level n : Int) (v : Value) :
    Option (String × Machine) := do
  let fr ← (m.calls th).frame? level
  let (name, store) ← fr.setLocal? m.store n v
  return (name, { m with store })

/-- The name of a parameter of a script function. -/
def localNameOf? (m : Machine) (f : FunctionId) (n : Int) : Option String :=
  if n < 0 then none else (m.store.prototype? f).bind fun p => p.localName? n.toNat 0

def traceback (m : Machine) (th : ThreadId) (message : Option String) (level : Int) : String :=
  m.store.traceback m.settings.sourceSize (m.calls th) message level

/-! ## Upvalues -/

/-- The slot that an upvalue number counts, if the function has it. -/
def upvalueSlot? (cells : Array CellId) (n : Int) : Option Nat :=
  if 1 ≤ n ∧ n ≤ cells.size then some (n.toNat - 1) else none

/-- The cell behind upvalue `n` of a script function. -/
def upvalueCell? (m : Machine) (f : FunctionId) (n : Int) : Option CellId := do
  let cells ← m.store.upvalueCells? f
  let slot ← upvalueSlot? cells n
  cells[slot]?

def upvalueName (m : Machine) (f : FunctionId) (n : Int) : String :=
  ((m.store.prototype? f).bind fun p => p.upvalueName? (n.toNat - 1)).getD anonymousUpvalue

def getUpvalue? (m : Machine) (f : FunctionId) (n : Int) : Option (String × Value) := do
  let cell ← m.upvalueCell? f n
  let v ← m.store.cellValue? cell
  return (m.upvalueName f n, v)

/-- Assign an upvalue: its name and the machine afterwards. -/
def setUpvalue? (m : Machine) (f : FunctionId) (n : Int) (v : Value) :
    Option (String × Machine) := do
  let cell ← m.upvalueCell? f n
  let store ← m.store.setCell? cell v
  return (m.upvalueName f n, { m with store })

/-- Let upvalue `n` of `f` share the cell of upvalue `n'` of `f'`. -/
def joinUpvalues (m : Machine) (f : FunctionId) (n : Int) (f' : FunctionId) (n' : Int) :
    Except ScriptError Machine :=
  let refuse (position : Nat) (complaint : String) : Except ScriptError Machine :=
    .error (.badArgument position LibraryFunction.upvalueJoin.name complaint)
  match m.store.upvalueCells? f, m.store.upvalueCells? f' with
  | none, _ => refuse 1 "script function expected"
  | some _, none => refuse 3 "script function expected"
  | some cells, some _ =>
    match upvalueSlot? cells n, m.upvalueCell? f' n' with
    | none, _ => refuse 2 ("invalid upvalue index " ++ n.repr)
    | some _, none => refuse 4 ("invalid upvalue index " ++ n'.repr)
    | some slot, some cell => .ok { m with store := m.store.setUpvalueCell f slot cell }

/-! ## Hooks -/

def hook (m : Machine) (th : ThreadId) : Hook := (m.thread th).hook

/-- Replace the hook of a thread and enter the new one in the journal. -/
def setHook (m : Machine) (th : ThreadId) (f : Option FunctionId) (mask : String) (count : Nat) :
    Machine :=
  let t := m.thread th
  let hook := t.hook.replace f mask count
  { m.setThread th { t with hook } with journal := m.journal.push (.installed th hook) }

/-! ## Metatables and user values -/

/-- The metatable of a value: its own, or that of its kind. -/
def getMetatable? (m : Machine) : Value → Option TableId
  | .table t => (m.store.table? t).bind (·.metatable)
  | .userdata u => (m.store.userdata? u).bind (·.metatable)
  | v => m.kindMetatables.get v.kind

/-- Set the metatable of a value, or of its kind. -/
def setMetatable (m : Machine) (v : Value) (mt : Option TableId) : Except ScriptError Machine :=
  match v with
  | .table t =>
    if (m.store.table? t).isSome then
      .ok { m with store := m.store.modifyTable t ({ · with metatable := mt }) }
    else
      .error (.runtime ("invalid table #" ++ t.index.repr))
  | .userdata u =>
    if (m.store.userdata? u).isSome then
      .ok { m with store := m.store.modifyUserdata u ({ · with metatable := mt }) }
    else
      .error (.runtime ("invalid userdata #" ++ u.index.repr))
  | v => .ok (m.setKindMetatable v.kind mt).1

/-- The value attached to a full userdata; nil for anything else. -/
def getUserValue (m : Machine) : Value → Value
  | .userdata u => ((m.store.userdata? u).map (·.userValue)).getD .nil
  | _ => .nil

/-- Attach a table or nil to a full userdata. -/
def setUserValue (m : Machine) (target v : Value) : Except ScriptError Machine :=
  let function := LibraryFunction.setUserValue.name
  match target with
  | .userdata u =>
    if v.kind = .nil ∨ v.kind = .table then
      if (m.store.userdata? u).isSome then
        .ok { m with store := m.store.modifyUserdata u ({ · with userValue := v }) }
      else
        .error (.runtime ("invalid userdata #" ++ u.index.repr))
    else
      .error (.badArgument 2 function (mismatchText "table" v))
  | other => .error (.badArgument 1 function (mismatchText "userdata" other))

end Machine

end ScriptDebug
