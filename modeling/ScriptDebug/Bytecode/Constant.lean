import ScriptDebug.Number.Shortest

/-!
# Constants

The entries of a constant pool.  Entries are shared by constants that are the
same: floats are compared by their bits, which separates the two zeros and makes
a NaN the same constant as itself.  The integer 7 and the float 7 are different
constants.
-/

namespace ScriptDebug

inductive Constant where
  | nil
  | boolean (b : Bool)
  | integer (i : Int64)
  | float (x : Binary64)
  | string (s : String)
  deriving DecidableEq, Inhabited

namespace Constant

/-- Floats among constants carry no decimal point when they are whole. -/
def floatStyle : FloatStyle := ⟨"NaN", 0⟩

/-- The text of a string constant. -/
def string? : Constant → Option String
  | string s => some s
  | _ => none

/-- Numeric equality of floats, and equality of all other constants. -/
def equals : Constant → Constant → Bool
  | nil, nil => true
  | boolean b, boolean c => b == c
  | integer i, integer j => i == j
  | float x, float y => x.equals y
  | string s, string t => s == t
  | _, _ => false

/-- Whether constants share an entry of a pool. -/
def same : Constant → Constant → Bool
  | float x, float y => x.bits == y.bits
  | k, k' => k.equals k'

/-- A constant as a listing shows it; strings are quoted but not escaped. -/
def text : Constant → String
  | nil => "nil"
  | boolean b => if b then "true" else "false"
  | integer i => i.toInt.repr
  | float x => floatStyle.text x
  | string s => "\"" ++ s ++ "\""

end Constant

/-- The first entry of a pool that is the same as a constant: its index in the resulting
pool, which has grown by the constant exactly when there was no such entry. -/
def internConstant (pool : Array Constant) (k : Constant) : Array Constant × Nat :=
  match pool.findIdx? (·.same k) with
  | some i => (pool, i)
  | none => (pool.push k, pool.size)

theorem internConstant_of_found {pool : Array Constant} {k : Constant} {i : Nat}
    (h : pool.findIdx? (·.same k) = some i) : internConstant pool k = (pool, i) := by
  simp [internConstant, h]

theorem internConstant_of_absent {pool : Array Constant} {k : Constant}
    (h : pool.findIdx? (·.same k) = none) : internConstant pool k = (pool.push k, pool.size) := by
  simp [internConstant, h]

end ScriptDebug
