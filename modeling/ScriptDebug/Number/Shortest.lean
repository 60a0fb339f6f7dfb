import ScriptDebug.Number.Binary64

/-!
# Shortest decimals of floating-point numbers

A finite number is written with as few significant digits as still identify it:
the decimal lies in the interval of reals that round to the number.  The text is
always positional, without an exponent.

## Implementation notes

A decimal is a pair `(d, k)` for `d * 10 ^ k`.  Grids of spacing `10 ^ k` are
tried from the coarsest on; on each grid only the two neighbours of the number
are candidates, because a grid point in the interval implies that a neighbour is
in it.  All comparisons are between natural numbers, in quarters of the step
`2 ^ (-1074)`.
-/

namespace ScriptDebug

namespace Binary64

/-- Four times the magnitude, so that interval ends are whole numbers. -/
def quarters (x : Binary64) : Nat := 4 * x.magnitude

/-- Half the gap to the next larger number, in quarter steps. -/
def gapAbove (x : Binary64) : Nat := 2 <<< x.scale

/-- Half the gap to the next smaller number, in quarter steps.  The gap is
halved just above a power of two. -/
def gapBelow (x : Binary64) : Nat :=
  if x.fraction = 0 ∧ 1 < x.exponentField then 1 <<< x.scale else 2 <<< x.scale

/-- A power of ten as a fraction of natural numbers. -/
def powerOfTen (k : Int) : Nat × Nat := (Nat.pow 10 k.toNat, Nat.pow 10 (-k).toNat)

/-- Whether `d * 10 ^ k` rounds to the number: strictly inside the interval of
half gaps, or at one of its ends when the significand is even. -/
def readsBack (x : Binary64) (d : Nat) (k : Int) : Bool :=
  let (num, den) := powerOfTen k
  let point := d * num * (4 * one)
  let low := (x.quarters - x.gapBelow) * den
  let high := (x.quarters + x.gapAbove) * den
  if x.significand % 2 = 0 then low ≤ point && point ≤ high
  else low < point && point < high

/-- The point of the grid of spacing `10 ^ k` that reads back as the number and
is nearest to it, a tie going up. -/
def nearestOnGrid? (x : Binary64) (k : Int) : Option Nat :=
  let (num, den) := powerOfTen k
  let spacing := num * (4 * one)
  let value := x.quarters * den
  let d := value / spacing
  match x.readsBack d k, x.readsBack (d + 1) k with
  | true, true => some (if 2 * (value % spacing) < spacing then d else d + 1)
  | true, false => some d
  | false, true => some (d + 1)
  | false, false => none

/-- The shortest decimal of a finite number other than zero: the coarsest grid
with a point that reads back.  Spacings from `10 ^ 309` down to `10 ^ (-340)`
cover the format. -/
def shortest (x : Binary64) : Nat × Int :=
  ((List.range 650).findSome? fun (j : Nat) =>
    let k : Int := 309 - (j : Int)
    (x.nearestOnGrid? k).map fun d => (d, k)).getD (0, 0)

/-- The decimal `d * 10 ^ k` written out in positional notation. -/
def positional (d : Nat) (k : Int) : String :=
  let digits := Nat.toDigits 10 d
  if 0 ≤ k then
    String.ofList (digits ++ List.replicate k.toNat '0')
  else
    let places := (-k).toNat
    let padded := List.replicate (places + 1 - digits.length) '0' ++ digits
    let whole := padded.length - places
    String.ofList (padded.take whole ++ '.' :: padded.drop whole)

end Binary64

/-- How a context writes floating-point numbers: the word for a NaN, and the
magnitude below which a whole number carries the decimal `.0`. -/
structure FloatStyle where
  nan : String
  wholeWithPoint : Nat

/-- The text of a number in a given style. -/
def FloatStyle.text (style : FloatStyle) (x : Binary64) : String :=
  let sign := if x.isNegative then "-" else ""
  if x.isNaN then
    style.nan
  else if !x.isFinite then
    sign ++ "inf"
  else
    let digits := if x.isZero then "0" else
      let (d, k) := x.shortest
      Binary64.positional d k
    let whole := x.magnitude % Binary64.one == 0 &&
      x.magnitude / Binary64.one < style.wholeWithPoint
    sign ++ digits ++ (if whole then ".0" else "")

end ScriptDebug
