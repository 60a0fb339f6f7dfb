import ScriptDebug.Library.Arguments
import ScriptDebug.Library.InfoTable

/-!
# Calling library functions

Each function checks its arguments, performs one operation of the typed
reflection interface and packs the result into script values.  A function that
fails leaves the machine as it was.
-/

namespace ScriptDebug

/-- The outcome of a library function: its results and the machine afterwards. -/
abbrev LibraryOutcome := Except NativeError (List Value × Machine)

/-- An optional name as a script value. -/
def Value.ofName : Option String → Value
  | some name => .string name
  | none => .nil

/-- A name with its value as results, or nil. -/
def bindingResults : Option (String × Value) → List Value
  | some (name, v) => [.string name, v]
  | none => [.nil]

namespace Machine

/-- A description as results: a new table, or nothing where no call is. -/
def infoResults (m : Machine) (th : ThreadId) (target : InfoTarget) (what : String) :
    List Value × Machine :=
  match m.getInfo? th target what with
  | some info =>
    let (store, t) := m.store.newInfoTable info
    ([.table t], { m with store })
  | none => ([], m)

/-- `getinfo([thread,] function or level [, what])`: a table, or nothing. -/
def libGetInfo (m : Machine) (current : ThreadId) (args : List Value) : LibraryOutcome := do
  let fn := LibraryFunction.getInfo.name
  let a ← Arguments.ofValues m current fn args
  let target ← targetArgument m current fn a 0
  let what ← match a.get 1 with
    | .nil => .ok InfoRequest.defaultLetters
    | .string s => .ok s
    | v => .error (.typeMismatch (a.position 1) fn "string" v)
  return m.infoResults a.thread target what

/-- `getlocal([thread,] function or level, n)`: name and value of a local, or the
name of a parameter. -/
def libGetLocal (m : Machine) (current : ThreadId) (args : List Value) : LibraryOutcome := do
  let fn := LibraryFunction.getLocal.name
  let a ← Arguments.ofValues m current fn args
  let target ← targetArgument m current fn a 0
  let n ← integerArgument fn (a.position 1) (a.get 1)
  match target with
  | .function f => return ([.ofName (m.localNameOf? f n.toInt)], m)
  | .level level => return (bindingResults (m.getLocal? a.thread level n.toInt), m)

/-- `setlocal([thread,] level, n, value)`: the name of the local, or nil. -/
def libSetLocal (m : Machine) (current : ThreadId) (args : List Value) : LibraryOutcome := do
  let fn := LibraryFunction.setLocal.name
  let a ← Arguments.ofValues m current fn args
  let level ← integerArgument fn (a.position 0) (a.get 0)
  let n ← integerArgument fn (a.position 1) (a.get 1)
  let level := m.stackLevel current a.thread level
  match m.setLocal? a.thread level n.toInt (a.get 2) with
  | some (name, m) => return ([.string name], m)
  | none => return ([.nil], m)

/-- `getupvalue(f, n)`: name and value of an upvalue, or nil. -/
def libGetUpvalue (m : Machine) (args : List Value) : LibraryOutcome := do
  let fn := LibraryFunction.getUpvalue.name
  let f ← functionArgument fn 1 (args.getD 0 .nil)
  let n ← integerArgument fn 2 (args.getD 1 .nil)
  return (bindingResults (m.getUpvalue? f n.toInt), m)

/-- `setupvalue(f, n, value)`: the name of the upvalue, or nil. -/
def libSetUpvalue (m : Machine) (args : List Value) : LibraryOutcome := do
  let fn := LibraryFunction.setUpvalue.name
  let f ← functionArgument fn 1 (args.getD 0 .nil)
  let n ← integerArgument fn 2 (args.getD 1 .nil)
  match m.setUpvalue? f n.toInt (args.getD 2 .nil) with
  | some (name, m) => return ([.string name], m)
  | none => return ([.nil], m)

/-- `upvalueid(f, n)`: the identity of the cell behind an upvalue, or nil. -/
def libUpvalueId (m : Machine) (args : List Value) : LibraryOutcome := do
  let fn := LibraryFunction.upvalueId.name
  let f ← functionArgument fn 1 (args.getD 0 .nil)
  let n ← integerArgument fn 2 (args.getD 1 .nil)
  match m.upvalueCell? f n.toInt with
  | some cell => return ([.lightUserdata (UInt64.ofNat cell.index)], m)
  | none => return ([.nil], m)

/-- `upvaluejoin(f1, n1, f2, n2)`: let one upvalue share the cell of another. -/
def libUpvalueJoin (m : Machine) (args : List Value) : LibraryOutcome := do
  let fn := LibraryFunction.upvalueJoin.name
  let f ← functionArgument fn 1 (args.getD 0 .nil)
  let n ← integerArgument fn 2 (args.getD 1 .nil)
  let f' ← functionArgument fn 3 (args.getD 2 .nil)
  let n' ← integerArgument fn 4 (args.getD 3 .nil)
  let m ← (m.joinUpvalues f n.toInt f' n'.toInt).mapError .ofScript
  return ([], m)

/-- `gethook([thread])`: hook function, mask and count. -/
def libGetHook (m : Machine) (current : ThreadId) (args : List Value) : LibraryOutcome := do
  let a ← Arguments.ofValues m current LibraryFunction.getHook.name args
  let h := m.hook a.thread
  let f : Value := match h.function with
    | some f => .function f
    | none => .nil
  return ([f, .string h.mask.text, .integer (Int64.ofNat h.count)], m)

/-- The largest count of a hook. -/
def maxHookCount : Nat := 2 ^ 32 - 1

/-- `sethook([thread,] hook, mask [, count])`: install a hook; without a function,
remove it. -/
def libSetHook (m : Machine) (current : ThreadId) (args : List Value) : LibraryOutcome := do
  let fn := LibraryFunction.setHook.name
  let a ← Arguments.ofValues m current fn args
  match a.get 0 with
  | .nil => return ([], m.setHook a.thread none "" 0)
  | .function f =>
    let mask ← match a.get 1 with
      | .string s => .ok s
      | v => .error (NativeError.typeMismatch (a.position 1) fn "string" v)
    let count ← optionalInteger fn (a.position 2) 0 (a.get 2)
    return ([], m.setHook a.thread (some f) mask (min count.toInt.toNat maxHookCount))
  | v => throw (.typeMismatch (a.position 0) fn "function" v)

/-- `getmetatable(value)`: the metatable of any value. -/
def libGetMetatable (m : Machine) (args : List Value) : LibraryOutcome :=
  match m.getMetatable? (args.getD 0 .nil) with
  | some t => return ([.table t], m)
  | none => return ([.nil], m)

/-- `setmetatable(value, table)`: set the metatable of any value, which is returned. -/
def libSetMetatable (m : Machine) (args : List Value) : LibraryOutcome := do
  let value := args.getD 0 .nil
  let mt ← match args.getD 1 .nil with
    | .nil => .ok none
    | .table t => .ok (some t)
    | v => .error (.typeMismatch 2 LibraryFunction.setMetatable.name "nil or table" v)
  let m ← (m.setMetatable value mt).mapError .ofScript
  return ([value], m)

/-- `setuservalue(userdata, value)`: attach a table or nil to a userdata, which is
returned. -/
def libSetUserValue (m : Machine) (args : List Value) : LibraryOutcome := do
  let target := args.getD 0 .nil
  let m ← (m.setUserValue target (args.getD 1 .nil)).mapError .ofScript
  return ([target], m)

/-- `traceback([thread,] [message [, level]])`: the active calls as text.  A
message that is neither a string nor a number is returned as it is. -/
def libTraceback (m : Machine) (current : ThreadId) (args : List Value) : LibraryOutcome := do
  let fn := LibraryFunction.traceback.name
  let a ← Arguments.ofValues m current fn args
  let dump (message : Option String) : LibraryOutcome := do
    let default : Int64 := if current = a.thread then 1 else 0
    let level ← optionalInteger fn (a.position 1) default (a.get 1)
    let level := m.stackLevel current a.thread level
    return ([.string (m.traceback a.thread message level)], m)
  match a.get 0 with
  | .nil => dump none
  | .string s => dump (some s)
  | v => if v.isNumber then dump (some v.text) else return ([v], m)

end Machine

/-- Run a library function called on a thread. -/
def LibraryFunction.run (f : LibraryFunction) (m : Machine) (current : ThreadId)
    (args : List Value) : LibraryOutcome :=
  if (m.thread? current).isSome then
    match f with
    | getHook => m.libGetHook current args
    | getInfo => m.libGetInfo current args
    | getLocal => m.libGetLocal current args
    | getMetatable => m.libGetMetatable args
    | getRegistry => return ([.table Machine.registry], m)
    | getUpvalue => m.libGetUpvalue args
    | getUserValue => return ([m.getUserValue (args.getD 0 .nil)], m)
    | setHook => m.libSetHook current args
    | setLocal => m.libSetLocal current args
    | setMetatable => m.libSetMetatable args
    | setUpvalue => m.libSetUpvalue args
    | setUserValue => m.libSetUserValue args
    | traceback => m.libTraceback current args
    | upvalueId => m.libUpvalueId args
    | upvalueJoin => m.libUpvalueJoin args
  else
    throw (.message (unknownThreadText f.name))

namespace Machine

/-- The global that holds the library. -/
def libraryGlobal : String := "debug"

/-- Create the library table and make it a global, and a loaded package where
packages are kept. -/
def registerLibrary (m : Machine) : Machine × TableId :=
  let (store, table) := m.store.newTable
  let store := LibraryFunction.all.foldl
    (fun s f =>
      let (s, id) := s.newFunction ⟨.native f.name, .library f⟩
      s.setField table f.name (.function id))
    store
  let store := store.setField globals libraryGlobal (.table table)
  let loaded? := do
    let package ← (store.field globals "package").toTable?
    (store.field package "loaded").toTable?
  let store := match loaded? with
    | some loaded => store.setField loaded libraryGlobal (.table table)
    | none => store
  ({ m with store }, table)

/-- The value that the library table has under a name. -/
def libraryField (m : Machine) (name : String) : Value :=
  match (m.store.field globals libraryGlobal).toTable? with
  | some t => m.store.field t name
  | none => .nil

end Machine

end ScriptDebug
