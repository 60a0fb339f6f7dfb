import ScriptDebug.Number.Power

/-!
# Floating-point numbers as bit patterns

A number in the binary interchange format of 64 bits: a sign, an exponent field
of 11 bits and a fraction of 52.  Every finite magnitude is a whole number of
steps of size `2 ^ (-1074)`, the smallest positive number of the format, so
questions about values become questions about natural numbers.

## Implementation notes

`magnitude` counts those steps.  Numeric comparison is `Binary64.equals`, which
identifies the two zeros and never holds of a NaN; equality of the structure is
equality of bits.
-/

namespace ScriptDebug

/-- The bits of a floating-point number. -/
structure Binary64 where
  bits : UInt64
  deriving DecidableEq, Inhabited

namespace Binary64

def fraction (x : Binary64) : Nat := x.bits.toNat % 2 ^ 52

def exponentField (x : Binary64) : Nat := x.bits.toNat / 2 ^ 52 % 2 ^ 11

def isNegative (x : Binary64) : Bool := x.bits.toNat / 2 ^ 63 == 1

def isFinite (x : Binary64) : Bool := x.exponentField != 2047

def isNaN (x : Binary64) : Bool := x.exponentField == 2047 && x.fraction != 0

/-- The exponent of the last place of a finite number, counted from the smallest step. -/
def scale (x : Binary64) : Nat := x.exponentField - 1

/-- The significand as an integer, with the leading bit that normal numbers leave out. -/
def significand (x : Binary64) : Nat :=
  if x.exponentField = 0 then x.fraction else 2 ^ 52 + x.fraction

/-- How many steps of `2 ^ (-1074)` a finite number is away from zero. -/
def magnitude (x : Binary64) : Nat := x.significand <<< x.scale

/-- The number of steps of `2 ^ (-1074)` in one. -/
def one : Nat := 2 ^ 1074

/-- The integer that the number is, if it is one. -/
def toInt? (x : Binary64) : Option Int :=
  if x.isFinite && x.magnitude % one == 0 then
    let n : Int := (x.magnitude / one : Nat)
    some (if x.isNegative then -n else n)
  else
    none

def isZero (x : Binary64) : Bool := x.isFinite && x.magnitude == 0

/-- Numeric equality: bits agree or both are zero, and neither is a NaN. -/
def equals (x y : Binary64) : Bool :=
  !x.isNaN && !y.isNaN && (x == y || x.isZero && y.isZero)

theorem equals_comm (x y : Binary64) : x.equals y = y.equals x := by
  simp only [equals]
  rw [Bool.beq_comm (a := x), Bool.and_comm (x := x.isZero), Bool.and_comm (x := !x.isNaN)]

end Binary64

/-- A natural number rounded to 53 significant bits, a tie going to the even
neighbour: the nearest number of the format. -/
def roundNatTo53 (n : Nat) : Nat :=
  let unit := 1 <<< (n.log2 - 52)
  let q := n / unit
  let r := n % unit
  if 2 * r < unit || 2 * r == unit && q % 2 == 0 then q * unit else (q + 1) * unit

/-- An integer rounded to 53 significant bits, a tie going to the even neighbour. -/
def roundIntTo53 (i : Int) : Int :=
  if i < 0 then -(roundNatTo53 i.natAbs : Int) else roundNatTo53 i.natAbs

end ScriptDebug
