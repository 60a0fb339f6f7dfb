import ScriptDebug.Value.Basic

/-!
# Table keys

The key under which a table files a value.  Floats that are 64-bit integers are
filed as integers, other floats by their bits; nil and NaN are no keys.
-/

namespace ScriptDebug

inductive TableKey where
  | integer (n : Int)
  | string (s : String)
  | float (x : Binary64)
  | boolean (b : Bool)
  | table (t : TableId)
  | userdata (u : UserdataId)
  | lightUserdata (p : UInt64)
  | function (f : FunctionId)
  | thread (t : ThreadId)
  deriving DecidableEq

/-- Why a value is no key. -/
inductive KeyError where
  | nilKey | nanKey
  deriving DecidableEq

def KeyError.message : KeyError → String
  | nilKey => "table index is nil"
  | nanKey => "table index is NaN"

/-- The key that a value is filed under. -/
def TableKey.ofValue : Value → Except KeyError TableKey
  | .nil => .error .nilKey
  | .boolean b => .ok (.boolean b)
  | .integer i => .ok (.integer i.toInt)
  | .float x =>
    if x.isNaN then .error .nanKey
    else
      match (Value.float x).toInteger? with
      | some i => .ok (.integer i.toInt)
      | none => .ok (.float x)
  | .string s => .ok (.string s)
  | .table t => .ok (.table t)
  | .function f => .ok (.function f)
  | .userdata u => .ok (.userdata u)
  | .lightUserdata p => .ok (.lightUserdata p)
  | .thread t => .ok (.thread t)

end ScriptDebug
