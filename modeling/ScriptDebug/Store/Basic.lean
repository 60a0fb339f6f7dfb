import ScriptDebug.Bytecode.Prototype
import ScriptDebug.Library.Function
import ScriptDebug.Scenario.Command
import ScriptDebug.Table.Basic

/-!
# The object store

All objects that values and frames refer to: tables, userdata, upvalue cells,
register windows and functions.  Objects of each sort are numbered in the order
of their creation and are never removed.

## Implementation notes

An upvalue cell is a name for a `Location`: a register while it is open, the
cell itself once it is closed.  Reading and writing go through locations only,
so an open cell, a frame and the running code share one register.
-/

namespace ScriptDebug

/-- An upvalue cell: open on a register, or closed with a value of its own. -/
inductive Cell where
  | aliasing (window : WindowId) (slot : Nat)
  | closed (v : Value)
  deriving DecidableEq, Inhabited

structure Userdata where
  userValue : Value
  metatable : Option TableId
  deriving DecidableEq, Inhabited

/-- What calling a function means to the machine. -/
inductive Callable where
  | script (prototype : Prototype) (cells : Array CellId)
  | native (name : String)
  deriving DecidableEq, Inhabited

/-- What running a function does. -/
inductive Routine where
  | scripted (label : String) (body : List Command)
  | library (f : LibraryFunction)
  deriving Inhabited

structure FunctionObject where
  callable : Callable
  routine : Routine
  deriving Inhabited

/-- A place that holds a value. -/
inductive Location where
  | register (window : WindowId) (slot : Nat)
  | cell (c : CellId)
  deriving DecidableEq

structure Store where
  tables : Array Table
  userdata : Array Userdata
  cells : Array Cell
  windows : Array (Array Value)
  functions : Array FunctionObject
  deriving Inhabited

namespace Store

def empty : Store := ⟨#[], #[], #[], #[], #[]⟩

/-! ## Creation -/

def newTable (s : Store) : Store × TableId :=
  ({ s with tables := s.tables.push .empty }, ⟨s.tables.size⟩)

def newUserdata (s : Store) : Store × UserdataId :=
  ({ s with userdata := s.userdata.push ⟨.nil, none⟩ }, ⟨s.userdata.size⟩)

def newCell (s : Store) (c : Cell) : Store × CellId :=
  ({ s with cells := s.cells.push c }, ⟨s.cells.size⟩)

def newWindow (s : Store) (registers : Array Value) : Store × WindowId :=
  ({ s with windows := s.windows.push registers }, ⟨s.windows.size⟩)

def newFunction (s : Store) (f : FunctionObject) : Store × FunctionId :=
  ({ s with functions := s.functions.push f }, ⟨s.functions.size⟩)

/-! ## Tables and userdata -/

def table? (s : Store) (t : TableId) : Option Table := s.tables[t.index]?

def modifyTable (s : Store) (t : TableId) (f : Table → Table) : Store :=
  { s with tables := s.tables.modify t.index f }

def setField (s : Store) (t : TableId) (name : String) (v : Value) : Store :=
  s.modifyTable t (·.setField name v)

/-- The value of a string key, nil if there is no such table. -/
def field (s : Store) (t : TableId) (name : String) : Value :=
  ((s.table? t).map (·.getField name)).getD .nil

def userdata? (s : Store) (u : UserdataId) : Option Userdata := s.userdata[u.index]?

def modifyUserdata (s : Store) (u : UserdataId) (f : Userdata → Userdata) : Store :=
  { s with userdata := s.userdata.modify u.index f }

theorem table?_modifyTable (s : Store) (t : TableId) (f : Table → Table) (t' : TableId) :
    (s.modifyTable t f).table? t' = if t' = t then (s.table? t').map f else s.table? t' := by
  obtain ⟨i⟩ := t
  obtain ⟨j⟩ := t'
  simp only [modifyTable, table?, Array.getElem?_modify, Handle.mk.injEq, eq_comm]

theorem userdata?_modifyUserdata (s : Store) (u : UserdataId) (f : Userdata → Userdata)
    (u' : UserdataId) : (s.modifyUserdata u f).userdata? u' =
      if u' = u then (s.userdata? u').map f else s.userdata? u' := by
  obtain ⟨i⟩ := u
  obtain ⟨j⟩ := u'
  simp only [modifyUserdata, userdata?, Array.getElem?_modify, Handle.mk.injEq, eq_comm]

/-! ## Registers and cells -/

def registers (s : Store) (w : WindowId) : Array Value := s.windows.getD w.index #[]

def windowSize (s : Store) (w : WindowId) : Nat := (s.registers w).size

/-- The value of a register, nil outside the window. -/
def register (s : Store) (w : WindowId) (slot : Nat) : Value := (s.registers w).getD slot .nil

/-- Write a register; nothing happens outside the window. -/
def setRegister (s : Store) (w : WindowId) (slot : Nat) (v : Value) : Store :=
  { s with windows := s.windows.modify w.index (·.setIfInBounds slot v) }

/-- The place that a cell stands for, if there is such a cell. -/
def location? (s : Store) (c : CellId) : Option Location :=
  (s.cells[c.index]?).map fun
    | .aliasing w slot => .register w slot
    | .closed _ => .cell c

def read (s : Store) : Location → Value
  | .register w slot => s.register w slot
  | .cell c =>
    match s.cells[c.index]? with
    | some (.closed v) => v
    | _ => .nil

def write (s : Store) (l : Location) (v : Value) : Store :=
  match l with
  | .register w slot => s.setRegister w slot v
  | .cell c => { s with cells := s.cells.setIfInBounds c.index (.closed v) }

def cellValue? (s : Store) (c : CellId) : Option Value := (s.location? c).map s.read

/-- Write the place that a cell stands for; absent if there is no such cell. -/
def setCell? (s : Store) (c : CellId) (v : Value) : Option Store :=
  (s.location? c).map (s.write · v)

/-- Give a cell its present value for its own; absent if there is no such cell. -/
def closeCell? (s : Store) (c : CellId) : Option Store :=
  (s.cellValue? c).map (s.write (.cell c))

/-! ## Functions -/

def function? (s : Store) (f : FunctionId) : Option FunctionObject := s.functions[f.index]?

def callable? (s : Store) (f : FunctionId) : Option Callable := (s.function? f).map (·.callable)

/-- The prototype of a script function. -/
def prototype? (s : Store) (f : FunctionId) : Option Prototype :=
  match s.callable? f with
  | some (.script p _) => some p
  | _ => none

/-- The upvalue cells of a script function. -/
def upvalueCells? (s : Store) (f : FunctionId) : Option (Array CellId) :=
  match s.callable? f with
  | some (.script _ cells) => some cells
  | _ => none

/-- The name of a native function. -/
def nativeName? (s : Store) (f : FunctionId) : Option String :=
  match s.callable? f with
  | some (.native name) => some name
  | _ => none

def isNative (s : Store) (f : FunctionId) : Bool := (s.nativeName? f).isSome

/-- Let an upvalue slot of a script function stand for another cell. -/
def setUpvalueCell (s : Store) (f : FunctionId) (slot : Nat) (c : CellId) : Store :=
  { s with
    functions := s.functions.modify f.index fun o =>
      match o.callable with
      | .script p cells => { o with callable := .script p (cells.setIfInBounds slot c) }
      | .native _ => o }

/-- The text of a function for a reader: its source or its native name. -/
def describeFunction (s : Store) (f : FunctionId) : String :=
  match s.callable? f with
  | some (.script p _) => "function: " ++ p.sourceName
  | some (.native name) => "function: builtin '" ++ name ++ "'"
  | none => "function: ?"

end Store

end ScriptDebug
