import ScriptDebug.Number.Shortest
import ScriptDebug.Text.Numeral
import ScriptDebug.Value.Basic

/-!
# The text of values

Numbers are written in full, objects as their type with their identity.
-/

namespace ScriptDebug

namespace Value

/-- Floats among values keep a decimal point when they are whole and below `10 ^ 16`. -/
def floatStyle : FloatStyle := ⟨"nan", 10 ^ 16⟩

def text : Value → String
  | nil => "nil"
  | boolean b => if b then "true" else "false"
  | integer i => i.toInt.repr
  | float x => floatStyle.text x
  | string s => s
  | table t => "table: " ++ hexWord t.index
  | function f => "function: " ++ hexWord f.index
  | userdata u => "userdata: " ++ hexWord u.index
  | lightUserdata p => "userdata: " ++ hexWord p.toNat
  | thread t => "thread: " ++ hexWord t.index

end Value

end ScriptDebug
