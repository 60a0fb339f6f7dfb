import ScriptDebug.Scenario.Session

/-!
# Resolving names

The terms of a command stand for values, functions, windows and tables of the
session.  A name that stands for nothing is nil as a value and an error where an
object of a certain sort is needed.
-/

namespace ScriptDebug

/-- The surroundings of a running body. -/
structure Surroundings where
  thread : ThreadId
  label : String
  args : List Value
  varargs : List Value
  window : Option WindowId

/-- The surroundings of commands outside all bodies. -/
def Surroundings.outermost : Surroundings := ⟨Machine.mainThread, "", [], [], none⟩

namespace Session

def evalTerm (s : Session) (here : Surroundings) : Term → Value
  | .value v => v
  | .function label =>
    match s.functions.lookup label with
    | some f => .function f
    | none => .nil
  | .library name => s.machine.libraryField name
  | .variable name => (s.bindings.lookup name).getD .nil
  | .argument i => here.args.getD i .nil

def evalTable? (s : Session) (here : Surroundings) : TableTerm → Option TableId
  | .globals => some Machine.globals
  | .registry => some Machine.registry
  | .value t => (s.evalTerm here t).toTable?

def evalWindow? (s : Session) (here : Surroundings) : WindowTerm → Option WindowId
  | .named name => s.windows.lookup name
  | .own => here.window

/-- Give a name to something, in place of what it stood for. -/
def rebind {α : Type} (names : List (String × α)) (name : String) (a : α) : List (String × α) :=
  (name, a) :: names.filter (·.1 != name)

def bindVariable (s : Session) (name : String) (v : Value) : Session :=
  { s with bindings := rebind s.bindings name v }

def bindFunction (s : Session) (label : String) (f : FunctionId) : Session :=
  { s with functions := rebind s.functions label f }

def bindWindow (s : Session) (name : String) (w : WindowId) : Session :=
  { s with windows := rebind s.windows name w }

end Session

namespace Exec

def value (here : Surroundings) (t : Term) : Exec Value := return (← get).evalTerm here t

def values (here : Surroundings) (ts : List Term) : Exec (List Value) := do
  let s ← get
  return ts.map (s.evalTerm here)

/-- The function that a term stands for. -/
def function (here : Surroundings) (t : Term) : Exec FunctionId := do
  match ← value here t with
  | .function f => return f
  | v => raise (.runtime ("attempt to call a " ++ v.typeName ++ " value"))

/-- The window that a term stands for. -/
def window (here : Surroundings) (w : WindowTerm) : Exec WindowId := do
  match (← get).evalWindow? here w with
  | some w => return w
  | none => raise (.runtime "no such window")

/-- A level below the innermost call. -/
def levelOfNoCall : Int := 0

/-- The table that a term stands for, absent if the store has none. -/
def table? (here : Surroundings) (t : TableTerm) : Exec (Option (TableId × Table)) := do
  let s ← get
  return (s.evalTable? here t).bind fun id => (s.machine.store.table? id).map fun t => (id, t)

def optionalTable (here : Surroundings) (t : Term) : Exec (Option TableId) :=
  return (← value here t).toTable?

def optionalFunction (here : Surroundings) (t : Term) : Exec (Option FunctionId) :=
  return (← value here t).toFunction?

/-- What a value describes: a function itself, an integral number the call at
that level, and anything else no call at all. -/
def infoTarget (here : Surroundings) (t : Term) : Exec InfoTarget := do
  match ← value here t with
  | .function f => return .function f
  | v => return .level ((v.toInteger?.map Int64.toInt).getD levelOfNoCall)

/-- The varargs to report: those given, or those of the running body. -/
def varargs (here : Surroundings) : Option (List Term) → Exec (List Value)
  | some ts => values here ts
  | none => return here.varargs

end Exec

end ScriptDebug
