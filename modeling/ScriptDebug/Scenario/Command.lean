import ScriptDebug.Value.Basic

/-!
# Commands

The language in which function bodies and sessions are written.  A command
performs one operation of the machine, of its typed reflection interface or of
its library; a body is a list of commands.

## Implementation notes

Commands refer to functions, variables and windows by name, since bodies are
written before the objects they speak of exist.  Names are resolved when a
command is performed.

Actions fall into classes by what they can do: object actions create and change
objects, notifications tell a thread what runs, and inspections use the typed
reflection interface.  Only notifications and calls can run other code.
-/

namespace ScriptDebug

/-- A value in a command. -/
inductive Term where
  | value (v : Value)
  /-- The function created under a label. -/
  | function (label : String)
  /-- The function of that name in the library table. -/
  | library (name : String)
  | variable (name : String)
  /-- An argument of the running body, counted from 0. -/
  | argument (i : Nat)

/-- A table in a command. -/
inductive TableTerm where
  | globals
  | registry
  | value (t : Term)

/-- A window in a command: one of its own name or that of the running body. -/
inductive WindowTerm where
  | named (name : String)
  | own

/-- An error in a command. -/
inductive ErrorTerm where
  | runtime (text : String)
  | badArgument (position : Nat) (function complaint : String)
  | value (v : Term)

/-- What every command may say about how it is performed. -/
structure Modifiers where
  /-- The thread it is for, if not that of the running body. -/
  thread : Option ThreadId
  /-- Perform it only while the thread has fewer calls than this. -/
  below : Option Nat
  /-- The variable that takes its value. -/
  storeAs : Option String
  /-- Go on with the body after an error. -/
  attempt : Bool

/-- Creating objects, reading and changing them. -/
inductive ObjectAction where
  | newTable
  | newUserdata
  | newThread
  | newCell (value : Term)
  | newOpenCell (window : WindowTerm) (slot : Nat)
  | closeCell (cell : CellId)
  | setCell (cell : CellId) (value : Term)
  | getCell (cell : CellId)
  | newWindow (name : String) (size : Nat)
  | getRegister (window : WindowTerm) (slot : Nat)
  | setRegister (window : WindowTerm) (slot : Nat) (value : Term)
  | dumpWindow (window : WindowTerm)
  | sameWindow (window other : WindowTerm)
  | describeFunction (f : Term)
  | setTable (table : TableTerm) (key value : Term)
  | getTable (table : TableTerm) (key : Term)
  | tableLength (table : TableTerm)
  | bind (value : Term)
  | registerLibrary
  | describeMachine

/-- Telling a thread what its innermost call does. -/
inductive Notification where
  | call (f : Term)
  | scriptCall (f : Term) (window : WindowTerm) (varargs : Option (List Term))
  | instruction (pc top : Nat) (varargs : Option (List Term))
  /-- An instruction of the running body, on its own window. -/
  | ownInstruction (pc : Nat) (top : Option Nat)
  | ret
  | unwind (depth : Nat)

/-- Using the typed reflection interface. -/
inductive Inspection where
  /-- The target is a function or the number of a level. -/
  | getInfo (target : Term) (what : String)
  | getLocal (level n : Int)
  | setLocal (level n : Int) (value : Term)
  | getLocalName (f : Term) (n : Int)
  | getUpvalue (f : Term) (n : Int)
  | setUpvalue (f : Term) (n : Int) (value : Term)
  | upvalueId (f : Term) (n : Int)
  | joinUpvalues (f : Term) (n : Int) (source : Term) (m : Int)
  | getHook
  /-- Without a function the hook is removed. -/
  | setHook (f : Term) (mask : String) (count : Nat)
  | getMetatable (value : Term)
  | setMetatable (value metatable : Term)
  | setKindMetatable (value metatable : Term)
  | kindMetatables
  | resetKindMetatables
  | getUserValue (userdata : Term)
  | setUserValue (userdata value : Term)
  | traceback (level : Int) (message : Option String)
  | frame (level : Int)
  | findCall (f : Term)
  | levels
  | guard
  | state

mutual

inductive Action where
  | object (a : ObjectAction)
  | notify (a : Notification)
  | inspect (a : Inspection)
  | newClosure (label prototype : String) (cells : List CellId) (body : List Command)
  | newNative (label name : String) (body : List Command)
  | call (f : Term) (args : List Term)
  | callLibrary (name : String) (args : List Term)
  /-- Run a native function without a call. -/
  | callDirectly (f : Term) (args : List Term) (thread : ThreadId)
  | repeatBlock (times : Nat) (body : List Command)
  /-- The arguments of the running body. -/
  | args
  /-- Leave the running body with values. -/
  | ret (values : List Term)
  | raise (e : ErrorTerm)

inductive Command where
  | mk (modifiers : Modifiers) (action : Action)

end

instance : Inhabited Command := ⟨.mk ⟨none, none, none, false⟩ .args⟩

namespace Command

def modifiers : Command → Modifiers
  | mk m _ => m

def action : Command → Action
  | mk _ a => a

end Command

/-! ## The words that actions are logged under -/

def ObjectAction.keyword : ObjectAction → String
  | newTable => "table"
  | newUserdata => "userdata"
  | newThread => "thread"
  | newCell .. => "cell"
  | newOpenCell .. => "open_cell"
  | closeCell .. => "close_cell"
  | setCell .. => "cell_set"
  | getCell .. => "cell_get"
  | newWindow .. => "window"
  | getRegister .. => "wget"
  | setRegister .. => "wset"
  | dumpWindow .. => "wdump"
  | sameWindow .. => "wsame"
  | describeFunction .. => "fn_text"
  | setTable .. => "tset"
  | getTable .. => "tget"
  | tableLength .. => "tlen"
  | bind .. => "var"
  | registerLibrary => "register_lib"
  | describeMachine => "vm_text"

def Notification.keyword : Notification → String
  | call .. => "on_call"
  | scriptCall .. => "on_call_script"
  | instruction .. => "on_instr"
  | ownInstruction .. => "pc"
  | ret => "on_return"
  | unwind .. => "unwind"

def Inspection.keyword : Inspection → String
  | getInfo .. => "getinfo"
  | getLocal .. => "getlocal"
  | setLocal .. => "setlocal"
  | getLocalName .. => "getlocal_name"
  | getUpvalue .. => "getupvalue"
  | setUpvalue .. => "setupvalue"
  | upvalueId .. => "upvalueid"
  | joinUpvalues .. => "upvaluejoin"
  | getHook => "gethook"
  | setHook .. => "sethook"
  | getMetatable .. => "getmetatable"
  | setMetatable .. => "setmetatable"
  | setKindMetatable .. => "set_type_mt"
  | kindMetatables => "type_mts"
  | resetKindMetatables => "reset_type_mts"
  | getUserValue .. => "getuservalue"
  | setUserValue .. => "setuservalue"
  | traceback .. => "traceback"
  | frame .. => "frame"
  | findCall .. => "find_frame"
  | levels => "levels"
  | guard => "guard"
  | state => "state"

def Action.keyword : Action → String
  | object a => a.keyword
  | notify a => a.keyword
  | inspect a => a.keyword
  | newClosure .. => "closure"
  | newNative .. => "native"
  | call .. => "call"
  | callLibrary .. => "lib"
  | callDirectly .. => "direct"
  | repeatBlock .. => "repeat"
  | args => "args"
  | ret .. => "ret"
  | raise .. => "err"

end ScriptDebug
