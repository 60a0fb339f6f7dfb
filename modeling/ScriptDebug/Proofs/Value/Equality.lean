import ScriptDebug.Proofs.Number.Integral
import ScriptDebug.Proofs.Table.Keys
import ScriptDebug.Table.Basic

/-!
# Equality of values and table keys

Values that are filed under one key are equal.  The converse holds apart from one case:
an integer of more than 53 bits equals the float that it rounds to, which is another
number and another key.  Neighbouring integers round to one float, so through such a
float equality is not transitive.

## Implementation notes

`RoundedApart` is the exceptional case.  Everything about numbers goes through the
integer that a float is, if it is one.
-/

namespace ScriptDebug

namespace Value

/-- An integer and a float, in either order: the integer rounds to the float, but the
float is another number. -/
inductive RoundedApart : Value → Value → Prop
  | ofInteger {i : Int64} {x : Binary64} (hround : x.toInt? = some (roundIntTo53 i.toInt))
      (hne : roundIntTo53 i.toInt ≠ i.toInt) : RoundedApart (integer i) (float x)
  | ofFloat {i : Int64} {x : Binary64} (hround : x.toInt? = some (roundIntTo53 i.toInt))
      (hne : roundIntTo53 i.toInt ≠ i.toInt) : RoundedApart (float x) (integer i)

variable {u v w : Value} {i j : Int64} {x y : Binary64}

/-- Every value but the floats that are no number. -/
def IsProper (v : Value) : Prop := ∀ x, v = float x → x.isNaN = false

/-! ## Numbers -/

theorem toInteger?_float_eq_some_iff :
    (float x).toInteger? = some i ↔ x.toInt? = some i.toInt := by
  simp only [toInteger?, Option.map_eq_some_iff, Option.filter_eq_some_iff, Bool.and_eq_true,
    decide_eq_true_eq]
  constructor
  · rintro ⟨n, ⟨hn, hlow, hhigh⟩, rfl⟩
    rw [hn, Int64.toInt_ofInt_of_le hlow hhigh]
  · intro h
    exact ⟨i.toInt, ⟨h, i.le_toInt, i.toInt_lt⟩, Int64.ofInt_toInt i⟩

theorem equals_integer : (integer i).equals (integer j) = true ↔ i = j := by simp [equals]

theorem equals_integer_float :
    (integer i).equals (float x) = true ↔ x.toInt? = some (roundIntTo53 i.toInt) := by
  simp [equals, integerEqualsFloat]

theorem equals_float_integer :
    (float x).equals (integer i) = true ↔ x.toInt? = some (roundIntTo53 i.toInt) := by
  simp [equals, integerEqualsFloat]

/-- An integer that a float can be rounds to itself. -/
theorem roundIntTo53_of_toInt? (h : x.toInt? = some i.toInt) :
    roundIntTo53 i.toInt = i.toInt :=
  roundIntTo53_of_fits (Binary64.fits_of_toInt? h)

theorem roundedApart_integer_float : RoundedApart (integer i) (float x) ↔
    x.toInt? = some (roundIntTo53 i.toInt) ∧ roundIntTo53 i.toInt ≠ i.toInt := by
  constructor
  · rintro ⟨hround, hne⟩
    exact ⟨hround, hne⟩
  · rintro ⟨hround, hne⟩
    exact .ofInteger hround hne

theorem RoundedApart.symm (h : RoundedApart v w) : RoundedApart w v := by
  cases h with
  | ofInteger hround hne => exact .ofFloat hround hne
  | ofFloat hround hne => exact .ofInteger hround hne

/-- An integer equals a float that is the same number, or another one to which it rounds. -/
theorem equals_integer_float_iff : (integer i).equals (float x) = true ↔
    x.toInt? = some i.toInt ∨ RoundedApart (integer i) (float x) := by
  rw [equals_integer_float, roundedApart_integer_float]
  constructor
  · intro h
    by_cases hexact : roundIntTo53 i.toInt = i.toInt
    · exact .inl (h.trans (congrArg some hexact))
    · exact .inr ⟨h, hexact⟩
  · rintro (h | ⟨h, -⟩)
    · exact h.trans (congrArg some (roundIntTo53_of_toInt? h).symm)
    · exact h

/-! ## An equivalence, as far as it is one -/

theorem equals_self (hv : v.IsProper) : v.equals v = true := by
  cases v with
  | float x => exact Binary64.equals_self_iff.mpr (hv x rfl)
  | _ => simp [equals]

theorem equals_comm (v w : Value) : v.equals w = w.equals v := by
  cases v with
  | float x =>
      cases w with
      | integer i => rfl
      | float y => exact Binary64.equals_comm x y
      | _ => exact Bool.beq_comm
  | integer i =>
      cases w with
      | float x => rfl
      | _ => exact Bool.beq_comm
  | _ => cases w <;> exact Bool.beq_comm

/-- Only a number can equal a value that it is not. -/
theorem equals_of_not_number (hv : v.kind ≠ .number) : v.equals w = true ↔ v = w := by
  have hbeq : v.equals w = (v == w) := by
    cases v with
    | integer i => exact absurd rfl hv
    | float x => exact absurd rfl hv
    | _ => cases w <;> rfl
  rw [hbeq, beq_iff_eq]

/-! ## Equality and keys -/

/-- The same value, or the same integer, as tables compare their keys. -/
def Same (v w : Value) : Prop :=
  w = v ∨ ∃ n, v.toInteger? = some n ∧ w.toInteger? = some n

theorem Same.symm (h : Same v w) : Same w v := by
  obtain rfl | ⟨n, hv, hw⟩ := h
  · exact .inl rfl
  · exact .inr ⟨n, hw, hv⟩

theorem same_integer : Same (integer i) (integer j) ↔ i = j := by
  constructor
  · rintro (h | ⟨n, hi, hj⟩)
    · exact (integer.inj h).symm
    · exact (Option.some.inj hi).trans (Option.some.inj hj).symm
  · rintro rfl
    exact .inl rfl

theorem same_integer_float : Same (integer i) (float x) ↔ x.toInt? = some i.toInt := by
  rw [← toInteger?_float_eq_some_iff]
  constructor
  · rintro (h | ⟨n, hi, hx⟩)
    · cases h
    · cases hi
      exact hx
  · intro h
    exact .inr ⟨i, rfl, h⟩

theorem same_float (hx : x.isNaN = false) : Same (float x) (float y) ↔ x.equals y = true := by
  constructor
  · rintro (h | ⟨n, hx, hy⟩)
    · cases h
      exact Binary64.equals_self_iff.mpr hx
    · exact Binary64.equals_of_toInt? (toInteger?_float_eq_some_iff.mp hx)
        (toInteger?_float_eq_some_iff.mp hy)
  · intro h
    obtain rfl | ⟨hx, hy⟩ := Binary64.eq_or_isZero_of_equals h
    · exact .inl rfl
    · exact .inr ⟨0, toInteger?_float_eq_some_iff.mpr (Binary64.toInt?_of_isZero hx),
        toInteger?_float_eq_some_iff.mpr (Binary64.toInt?_of_isZero hy)⟩

/-- What is neither an integer nor a float is the same as itself only. -/
theorem same_of_not_number (hv : v.kind ≠ .number) : Same v w ↔ v = w := by
  constructor
  · rintro (h | ⟨n, hn, -⟩)
    · exact h.symm
    · cases v with
      | integer i => exact absurd rfl hv
      | float x => exact absurd rfl hv
      | _ => cases hn
  · intro h
    exact .inl h.symm

theorem kind_of_roundedApart (h : RoundedApart v w) : v.kind = .number ∧ w.kind = .number := by
  cases h <;> exact ⟨rfl, rfl⟩

theorem not_same_of_roundedApart (h : RoundedApart v w) : ¬ Same v w := by
  have hapart : ∀ {i : Int64} {x : Binary64}, x.toInt? = some (roundIntTo53 i.toInt) →
      roundIntTo53 i.toInt ≠ i.toInt → ¬ Same (integer i) (float x) := by
    intro i x _ hne hsame
    exact hne (roundIntTo53_of_toInt? (same_integer_float.mp hsame))
  cases h with
  | ofInteger hround hne => exact hapart hround hne
  | ofFloat hround hne => exact fun hsame => hapart hround hne hsame.symm

/-- When values are equal: as a table compares them, or rounded apart. -/
theorem equals_iff (hv : v.IsProper) (hw : w.IsProper) :
    v.equals w = true ↔ Same v w ∨ RoundedApart v w := by
  -- The relations on both sides are symmetric, so one order of the two kinds is enough.
  have hcomm : (w.equals v = true ↔ Same w v ∨ RoundedApart w v) →
      (v.equals w = true ↔ Same v w ∨ RoundedApart v w) := by
    intro h
    rw [equals_comm, h]
    exact or_congr ⟨Same.symm, Same.symm⟩ ⟨RoundedApart.symm, RoundedApart.symm⟩
  have hplain : ∀ {v w : Value}, v.kind ≠ .number →
      (v.equals w = true ↔ Same v w ∨ RoundedApart v w) := by
    intro v w hv
    rw [equals_of_not_number hv, same_of_not_number hv]
    exact (or_iff_left fun h => hv (kind_of_roundedApart h).1).symm
  cases v with
  | integer i =>
      cases w with
      | integer j =>
          rw [equals_integer, same_integer]
          exact (or_iff_left (by rintro ⟨⟩)).symm
      | float x => rw [equals_integer_float_iff, same_integer_float]
      | _ => exact hcomm (hplain (by rintro ⟨⟩))
  | float x =>
      cases w with
      | integer j =>
          apply hcomm
          rw [equals_integer_float_iff, same_integer_float]
      | float y =>
          rw [same_float (hv x rfl)]
          exact (or_iff_left (by rintro ⟨⟩)).symm
      | _ => exact hcomm (hplain (by rintro ⟨⟩))
  | _ => exact hplain (by rintro ⟨⟩)

/-- A NaN equals nothing. -/
theorem isProper_of_equals (h : v.equals w = true) : v.IsProper := by
  rintro x rfl
  cases w with
  | integer i =>
      have hx := Binary64.toInt?_eq_some_iff.mp (equals_float_integer.mp h)
      exact Binary64.not_isNaN_of_isFinite hx.1
  | float y => exact Binary64.not_isNaN_of_equals h
  | _ => cases h

/-- Values with keys are no NaN. -/
theorem isProper_of_ofValue {k : TableKey} (h : TableKey.ofValue v = .ok k) : v.IsProper := by
  rintro x rfl
  cases hnan : x.isNaN with
  | false => rfl
  | true =>
      have herror := TableKey.ofValue_eq_error_iff.mpr (.inr ⟨x, rfl, hnan, rfl⟩)
      rw [h] at herror
      cases herror

theorem same_iff_of_ofValue {k k' : TableKey} (hv : TableKey.ofValue v = .ok k)
    (hw : TableKey.ofValue w = .ok k') : Same v w ↔ k = k' := by
  rw [Same, ← TableKey.ofValue_eq_iff hv, hw, Except.ok.injEq]
  exact eq_comm

/-- A table has one place for values that are the same. -/
theorem Same.get (h : Same v w) (t : Table) : t.get v = t.get w := by
  have hkey : TableKey.ofValue v = TableKey.ofValue w := by
    obtain rfl | ⟨n, hv, hw⟩ := h
    · rfl
    · have hv' := TableKey.ofValue_eq_integer_iff.mpr ⟨n, hv, rfl⟩
      have hw' := TableKey.ofValue_eq_integer_iff.mpr ⟨n, hw, rfl⟩
      exact hv'.trans hw'.symm
  simp only [Table.get, hkey]

/-! ## Transitivity -/

theorem equals_integer_cases (h : u.equals (integer i) = true) :
    u = integer i ∨ ∃ x, u = float x ∧ x.toInt? = some (roundIntTo53 i.toInt) := by
  cases u with
  | integer j => exact .inl (congrArg integer (equals_integer.mp h))
  | float x => exact .inr ⟨x, rfl, equals_float_integer.mp h⟩
  | _ => exact .inl ((equals_of_not_number (by rintro ⟨⟩)).mp h)

theorem equals_float_cases (h : u.equals (float x) = true) :
    (∃ y, u = float y ∧ y.equals x = true) ∨
      ∃ i, u = integer i ∧ x.toInt? = some (roundIntTo53 i.toInt) := by
  cases u with
  | integer i => exact .inr ⟨i, rfl, equals_integer_float.mp h⟩
  | float y => exact .inl ⟨y, rfl, h⟩
  | _ => exact absurd ((equals_of_not_number (by rintro ⟨⟩)).mp h) (by rintro ⟨⟩)

/-- Two values that equal a third one are equal, unless they are different integers and
the third is a float. -/
theorem equals_trans_iff (huv : u.equals v = true) (hvw : v.equals w = true) :
    u.equals w = true ↔ ¬ ∃ i x j, u = integer i ∧ v = float x ∧ w = integer j ∧ i ≠ j := by
  have hwv : w.equals v = true := (equals_comm w v).trans hvw
  cases v with
  | integer i =>
      refine iff_of_true ?_ (by rintro ⟨_, _, _, _, ⟨⟩, _⟩)
      obtain rfl | ⟨x, rfl, hx⟩ := equals_integer_cases huv
      · exact hvw
      · obtain rfl | ⟨y, rfl, hy⟩ := equals_integer_cases hwv
        · exact huv
        · exact Binary64.equals_of_toInt? hx hy
  | float x =>
      obtain ⟨y, rfl, hy⟩ | ⟨i, rfl, hi⟩ := equals_float_cases huv
      · refine iff_of_true ?_ (by rintro ⟨_, _, _, ⟨⟩, _⟩)
        obtain ⟨z, rfl, hz⟩ | ⟨j, rfl, hj⟩ := equals_float_cases hwv
        · exact Binary64.equals_trans hy hvw
        · exact equals_float_integer.mpr ((Binary64.toInt?_eq_of_equals hy).trans hj)
      · obtain ⟨z, rfl, hz⟩ | ⟨j, rfl, hj⟩ := equals_float_cases hwv
        · refine iff_of_true ?_ (by rintro ⟨_, _, _, _, _, ⟨⟩, _⟩)
          exact equals_integer_float.mpr ((Binary64.toInt?_eq_of_equals hz).trans hi)
        · rw [equals_integer]
          constructor
          · rintro rfl ⟨_, _, _, ⟨⟩, _, ⟨⟩, hne⟩
            exact hne rfl
          · intro hnone
            exact Decidable.byContradiction fun hne => hnone ⟨i, x, j, rfl, rfl, rfl, hne⟩
  | _ =>
      refine iff_of_true ?_ (by rintro ⟨_, _, _, _, ⟨⟩, _⟩)
      obtain rfl := (equals_of_not_number (by rintro ⟨⟩)).mp hvw
      exact huv

/-! ## The laws of equality -/

/-- Equality is reflexive but for NaN, symmetric, and transitive but for two integers that
round to one float.  An integer equals the float that is the same number.  Of values that
are keys, those are equal that are one key, which tables do not tell apart, and besides an
integer of more than 53 bits and the float nearest to it, which are two keys. -/
theorem equals_iff_one_key_or_roundedApart (u v w : Value) (i : Int64) (x : Binary64) :
    (v.IsProper → v.equals v = true) ∧
    v.equals w = w.equals v ∧
    (u.equals v = true → v.equals w = true →
      (u.equals w = true ↔
        ¬ ∃ i x j, u = integer i ∧ v = float x ∧ w = integer j ∧ i ≠ j)) ∧
    ((integer i).equals (float x) = true ↔
      x.toInt? = some i.toInt ∨ RoundedApart (integer i) (float x)) ∧
    (∀ k k', TableKey.ofValue v = .ok k → TableKey.ofValue w = .ok k' →
      (v.equals w = true ↔ k = k' ∨ RoundedApart v w) ∧ (RoundedApart v w → k ≠ k')) ∧
    (v.equals w = true → ¬ RoundedApart v w → ∀ t : Table, t.get v = t.get w) ∧
    (RoundedApart (integer i) (float x) → 2 ^ 53 < i.toInt.natAbs ∧
      ∃ r, x.toInt? = some r ∧ r ≠ i.toInt ∧ ∀ m : Int, FitsIn53 m.natAbs →
        (r - i.toInt).natAbs ≤ (m - i.toInt).natAbs) := by
  refine ⟨equals_self, equals_comm v w, equals_trans_iff, equals_integer_float_iff, ?_, ?_, ?_⟩
  · intro k k' hv hw
    have hsame := same_iff_of_ofValue hv hw
    constructor
    · rw [equals_iff (isProper_of_ofValue hv) (isProper_of_ofValue hw), hsame]
    · intro hround heq
      exact not_same_of_roundedApart hround (hsame.mpr heq)
  · intro heq hround
    have hw : w.IsProper := isProper_of_equals ((equals_comm w v).trans heq)
    have hsame : Same v w :=
      ((equals_iff (isProper_of_equals heq) hw).mp heq).resolve_right hround
    exact hsame.get
  · intro h
    obtain ⟨hround, hne⟩ := roundedApart_integer_float.mp h
    exact ⟨lt_natAbs_of_roundIntTo53_ne hne, _, hround, hne,
      fun m hm => roundIntTo53_nearest i.toInt hm⟩

/-- The largest integer up to which all integers are floats. -/
def lastPrecise : Value := integer 9007199254740992

/-- The integer after it, which is no float. -/
def firstRounded : Value := integer 9007199254740993

/-- The float that is `lastPrecise`. -/
def floatAtLimit : Value := float ⟨0x4340000000000000⟩

theorem ofValue_firstRounded :
    TableKey.ofValue firstRounded = .ok (.integer 9007199254740993) :=
  TableKey.ofValue_eq_integer_iff.mpr ⟨9007199254740993, rfl, by decide⟩

theorem ofValue_floatAtLimit :
    TableKey.ofValue floatAtLimit = .ok (.integer 9007199254740992) :=
  TableKey.ofValue_eq_integer_iff.mpr ⟨9007199254740992, by decide +kernel, by decide⟩

/-- Equality is neither transitive nor the equality of keys. -/
theorem equality_not_transitive :
    (lastPrecise.equals floatAtLimit = true ∧ floatAtLimit.equals firstRounded = true ∧
      lastPrecise.equals firstRounded = false) ∧
    TableKey.ofValue floatAtLimit = .ok (.integer 9007199254740992) ∧
      TableKey.ofValue firstRounded = .ok (.integer 9007199254740993) := by
  refine ⟨⟨?_, ?_, ?_⟩, ofValue_floatAtLimit, ofValue_firstRounded⟩
  all_goals decide +kernel

/-- The laws at the first integer that is rounded. -/
theorem first_rounded_equals_float :
    (floatAtLimit.IsProper ∧ floatAtLimit.equals floatAtLimit = true) ∧
    (lastPrecise.equals floatAtLimit = true ∧ floatAtLimit.equals firstRounded = true ∧
      (lastPrecise.equals firstRounded = true ↔ ¬ ∃ i x j,
        lastPrecise = integer i ∧ floatAtLimit = float x ∧ firstRounded = integer j ∧ i ≠ j)) ∧
    (TableKey.ofValue firstRounded = .ok (.integer 9007199254740993) ∧
      TableKey.ofValue floatAtLimit = .ok (.integer 9007199254740992) ∧
      (firstRounded.equals floatAtLimit = true ↔
        TableKey.integer 9007199254740993 = .integer 9007199254740992 ∨
          RoundedApart firstRounded floatAtLimit)) ∧
    (¬ RoundedApart lastPrecise floatAtLimit ∧
      ∀ t : Table, t.get lastPrecise = t.get floatAtLimit) ∧
    (RoundedApart firstRounded floatAtLimit ∧ 2 ^ 53 < (9007199254740993 : Int).natAbs) := by
  obtain ⟨hself, -, htrans, -⟩ := equals_iff_one_key_or_roundedApart lastPrecise floatAtLimit
    firstRounded 9007199254740993 ⟨0x4340000000000000⟩
  obtain ⟨-, -, -, -, hkeys, -, hround⟩ := equals_iff_one_key_or_roundedApart lastPrecise
    firstRounded floatAtLimit 9007199254740993 ⟨0x4340000000000000⟩
  obtain ⟨-, -, -, -, -, hget, -⟩ := equals_iff_one_key_or_roundedApart firstRounded lastPrecise
    floatAtLimit 9007199254740992 ⟨0x4340000000000000⟩
  have hproper : floatAtLimit.IsProper := by
    rintro x ⟨⟩
    decide +kernel
  have hlast : lastPrecise.equals floatAtLimit = true := by decide +kernel
  have hfirst : floatAtLimit.equals firstRounded = true := by decide +kernel
  have hapart : RoundedApart firstRounded floatAtLimit :=
    .ofInteger (by decide +kernel) (by decide +kernel)
  have hexact : ¬ RoundedApart lastPrecise floatAtLimit := by
    intro h
    exact (roundedApart_integer_float.mp h).2 (by decide +kernel)
  exact ⟨⟨hproper, hself hproper⟩, ⟨hlast, hfirst, htrans hlast hfirst⟩,
    ⟨ofValue_firstRounded, ofValue_floatAtLimit,
      (hkeys _ _ ofValue_firstRounded ofValue_floatAtLimit).1⟩,
    ⟨hexact, hget hlast hexact⟩, hapart, (hround hapart).1⟩

end Value

end ScriptDebug
