import ScriptDebug.Value.Text

/-!
# Errors

Scripts raise `ScriptError`, native functions fail with `NativeError`.  An error
crosses the boundary at every native call, in both directions; the value and the
text it shows stay the same (`toValue_ofScript`, `toValue_ofNative`).
-/

namespace ScriptDebug

/-- What a wrong argument is told as. -/
def badArgumentText (position : Nat) (function complaint : String) : String :=
  "bad argument #" ++ position.repr ++ " to '" ++ function ++ "' (" ++ complaint ++ ")"

/-- The complaint about an argument of the wrong type; nil counts as missing. -/
def mismatchText (expected : String) (actual : Value) : String :=
  expected ++ " expected, got " ++ (if actual.isNil then "no value" else actual.typeName)

/-- The failure of a native function. -/
inductive NativeError where
  | message (text : String)
  | value (v : Value)
  deriving DecidableEq, Inhabited

namespace NativeError

def badArgument (position : Nat) (function complaint : String) : NativeError :=
  message (badArgumentText position function complaint)

def typeMismatch (position : Nat) (function expected : String) (actual : Value) : NativeError :=
  badArgument position function (mismatchText expected actual)

def text : NativeError → String
  | message s => s
  | value v => v.text

/-- The error as a script sees it. -/
def toValue : NativeError → Value
  | message s => .string s
  | value v => v

end NativeError

/-- The error of a script, or of a call made by the host. -/
inductive ScriptError where
  | runtime (text : String)
  | badArgument (position : Nat) (function complaint : String)
  | value (v : Value)
  /-- A script function was called and nothing can execute it. -/
  | noInterpreter
  deriving DecidableEq, Inhabited

namespace ScriptError

def text : ScriptError → String
  | runtime s => s
  | badArgument position function complaint => badArgumentText position function complaint
  | value v => v.text
  | noInterpreter => "attempt to call a script function: no interpreter attached"

/-- The error as a script sees it. -/
def toValue : ScriptError → Value
  | value v => v
  | e => .string e.text

/-- A native failure that reaches a script. -/
def ofNative : NativeError → ScriptError
  | .message s => runtime s
  | .value v => value v

end ScriptError

/-- A script error that leaves a native function. -/
def NativeError.ofScript : ScriptError → NativeError
  | .value v => value v
  | e => message e.text

@[simp] theorem NativeError.toValue_ofScript (e : ScriptError) :
    (NativeError.ofScript e).toValue = e.toValue := by
  cases e <;> rfl

@[simp] theorem ScriptError.toValue_ofNative (e : NativeError) :
    (ScriptError.ofNative e).toValue = e.toValue := by
  cases e <;> rfl

@[simp] theorem NativeError.text_ofScript (e : ScriptError) :
    (NativeError.ofScript e).text = e.text := by
  cases e <;> rfl

@[simp] theorem ScriptError.text_ofNative (e : NativeError) :
    (ScriptError.ofNative e).text = e.text := by
  cases e <;> rfl

end ScriptDebug
