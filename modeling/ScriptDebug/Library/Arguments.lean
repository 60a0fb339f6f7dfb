import ScriptDebug.Machine.Reflection

/-!
# Arguments of library functions

Library functions take script values.  Many accept a leading thread, which moves
all further arguments by one position, and a stack level, which counts from the
script's point of view.

## Implementation notes

The library function itself is the innermost call of the thread that called it,
so script levels of that thread lie one above stack levels.  Within a hook the
stack stands still and the two agree (`levelShift`).
-/

namespace ScriptDebug

/-- The arguments after an optional leading thread. -/
structure Arguments where
  thread : ThreadId
  /-- By how much positions in error messages are moved. -/
  shift : Nat
  rest : List Value

namespace Arguments

def ofValues (m : Machine) (current : ThreadId) (function : String) (args : List Value) :
    Except NativeError Arguments :=
  match args with
  | .thread th :: rest =>
    if (m.thread? th).isSome then .ok ⟨th, 1, rest⟩
    else .error (.badArgument 1 function "invalid thread")
  | args => .ok ⟨current, 0, args⟩

/-- Argument `n`, counted from 0; nil if it is missing. -/
def get (a : Arguments) (n : Nat) : Value := a.rest.getD n .nil

/-- The position of argument `n` in error messages. -/
def position (a : Arguments) (n : Nat) : Nat := a.shift + n + 1

end Arguments

/-- An argument that has to be an integer. -/
def integerArgument (function : String) (position : Nat) (v : Value) : Except NativeError Int64 :=
  match v.toInteger? with
  | some n => .ok n
  | none => .error (.typeMismatch position function "number" v)

/-- An argument that has to be an integer unless it is missing. -/
def optionalInteger (function : String) (position : Nat) (default : Int64) (v : Value) :
    Except NativeError Int64 :=
  if v.isNil then .ok default else integerArgument function position v

/-- An argument that has to be a function. -/
def functionArgument (function : String) (position : Nat) (v : Value) :
    Except NativeError FunctionId :=
  match v with
  | .function f => .ok f
  | v => .error (.typeMismatch position function "function" v)

/-- How many calls of `target` a script on `current` does not count: the library
function itself, where it is on the stack. -/
def Machine.levelShift (m : Machine) (current target : ThreadId) : Int :=
  if current = target ∧ (m.hook target).inHook = false then
    match (m.calls target).frame? 1 with
    | some fr => if m.store.isNative fr.callee then 1 else 0
    | none => 0
  else
    0

/-- The stack level of a script level, at most the largest 64-bit integer. -/
def Machine.stackLevel (m : Machine) (current target : ThreadId) (level : Int64) : Int :=
  min (level.toInt + m.levelShift current target) Int64.maxValue.toInt

/-- An argument that has to be a function or a script level. -/
def targetArgument (m : Machine) (current : ThreadId) (function : String) (a : Arguments)
    (n : Nat) : Except NativeError InfoTarget :=
  match a.get n with
  | .function f => .ok (.function f)
  | v =>
    match v.toInteger? with
    | some level => .ok (.level (m.stackLevel current a.thread level))
    | none => .error (.badArgument (a.position n) function "function or level expected")

end ScriptDebug
