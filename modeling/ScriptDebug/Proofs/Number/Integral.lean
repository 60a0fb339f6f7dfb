import Mathlib.Algebra.Group.Nat.Defs
import ScriptDebug.Number.Binary64

/-!
# Integers among floating-point numbers

An integer is a number of the format when 53 significant bits write it.  Such an integer
is left alone by rounding, and apart from the two zeros no two numbers of the format are
the same integer.

## Implementation notes

Significand and scale of a finite number are normalized, so they can be told from the
magnitude: the exponent field is the number of bits beyond the 52nd.

Powers to a variable exponent are those of Mathlib, here as in every module that has it in
scope.
-/

namespace ScriptDebug

/-- A natural number that 53 significant bits write. -/
def FitsIn53 (n : Nat) : Prop := ∃ m e, m < 2 ^ 53 ∧ n = m * 2 ^ e

theorem FitsIn53.of_le {n : Nat} (h : n ≤ 2 ^ 53) : FitsIn53 n := by
  by_cases htop : n = 2 ^ 53
  · exact ⟨1, 53, by decide, by omega⟩
  · exact ⟨n, 0, by omega, by omega⟩

/-! ## Rounding -/

/-- The grid of numbers of the format that are as large as `n` is. -/
theorem FitsIn53.dvd_of_le {n k : Nat} (hk : FitsIn53 k) (hle : 2 ^ n.log2 ≤ k) :
    2 ^ (n.log2 - 52) ∣ k := by
  obtain ⟨m, e, hm, rfl⟩ := hk
  have hlt : 2 ^ n.log2 < 2 ^ (53 + e) := by
    calc
      2 ^ n.log2 ≤ m * 2 ^ e := hle
      _ < 2 ^ 53 * 2 ^ e := Nat.mul_lt_mul_of_pos_right hm (Nat.two_pow_pos e)
      _ = 2 ^ (53 + e) := (Nat.pow_add 2 53 e).symm
  have hexp : n.log2 < 53 + e := (Nat.pow_lt_pow_iff_right (by decide)).mp hlt
  exact Nat.dvd_mul_left_of_dvd (Nat.pow_dvd_pow 2 (by omega)) m

/-- A number of the format rounds to itself. -/
theorem FitsIn53.round {n : Nat} (h : FitsIn53 n) : roundNatTo53 n = n := by
  by_cases hn : n = 0
  · subst hn
    decide
  · have hdvd : 2 ^ (n.log2 - 52) ∣ n := h.dvd_of_le (Nat.log2_self_le hn)
    have hunit : (1 <<< (n.log2 - 52) : Nat) = 2 ^ (n.log2 - 52) := Nat.one_shiftLeft _
    have hpos : 0 < 2 ^ (n.log2 - 52) := Nat.two_pow_pos _
    simp only [roundNatTo53, hunit, Nat.mod_eq_zero_of_dvd hdvd]
    rw [if_pos (by simp [hpos]), Nat.div_mul_cancel hdvd]

/-- Rounding goes to one of the two neighbours on the grid, and not to the farther one. -/
theorem roundNatTo53_cases (n : Nat) :
    let unit := 2 ^ (n.log2 - 52)
    (roundNatTo53 n = n / unit * unit ∧ 2 * (n % unit) ≤ unit) ∨
      (roundNatTo53 n = (n / unit + 1) * unit ∧ unit ≤ 2 * (n % unit)) := by
  have hunit : (1 <<< (n.log2 - 52) : Nat) = 2 ^ (n.log2 - 52) := Nat.one_shiftLeft _
  simp only [roundNatTo53, hunit, Bool.or_eq_true, Bool.and_eq_true, decide_eq_true_eq, beq_iff_eq]
  split
  · rename_i hdown
    exact .inl ⟨rfl, by omega⟩
  · rename_i hup
    exact .inr ⟨rfl, by omega⟩

/-- No number of the format is nearer than the one that a number rounds to. -/
theorem roundNatTo53_nearest (n : Nat) {k : Nat} (hk : FitsIn53 k) :
    ((roundNatTo53 n : Int) - n).natAbs ≤ ((k : Int) - n).natAbs := by
  by_cases hn : n = 0
  · subst hn
    simp [show roundNatTo53 0 = 0 by decide]
  have hcases := roundNatTo53_cases n
  have hlow : 2 ^ n.log2 ≤ n / 2 ^ (n.log2 - 52) * 2 ^ (n.log2 - 52) := by
    obtain ⟨j, hj⟩ : 2 ^ (n.log2 - 52) ∣ 2 ^ n.log2 := Nat.pow_dvd_pow 2 (by omega)
    have hle : j ≤ n / 2 ^ (n.log2 - 52) := by
      rw [Nat.le_div_iff_mul_le (Nat.two_pow_pos _), Nat.mul_comm, ← hj]
      exact Nat.log2_self_le hn
    calc
      2 ^ n.log2 = j * 2 ^ (n.log2 - 52) := hj.trans (Nat.mul_comm _ _)
      _ ≤ n / 2 ^ (n.log2 - 52) * 2 ^ (n.log2 - 52) := Nat.mul_le_mul_right _ hle
  have hdvd := hk.dvd_of_le (n := n)
  have hdiv := Nat.div_add_mod' n (2 ^ (n.log2 - 52))
  have hmod := Nat.mod_lt n (Nat.two_pow_pos (n.log2 - 52))
  simp only [Nat.add_mul, Nat.one_mul] at hcases
  generalize 2 ^ (n.log2 - 52) = unit at *
  by_cases hbelow : k < 2 ^ n.log2
  · omega
  · obtain ⟨j, rfl⟩ := hdvd (by omega)
    rw [Nat.mul_comm unit j]
    by_cases hj : j ≤ n / unit
    · have hside := Nat.mul_le_mul_right unit hj
      omega
    · have hside : (n / unit + 1) * unit ≤ j * unit := Nat.mul_le_mul_right unit (by omega)
      rw [Nat.add_mul, Nat.one_mul] at hside
      omega

theorem roundIntTo53_nearest (i : Int) {k : Int} (hk : FitsIn53 k.natAbs) :
    (roundIntTo53 i - i).natAbs ≤ (k - i).natAbs := by
  have hnearest := roundNatTo53_nearest i.natAbs hk
  have hzero := roundNatTo53_nearest i.natAbs (.of_le (Nat.zero_le _))
  unfold roundIntTo53
  split <;> omega

theorem roundIntTo53_of_fits {i : Int} (h : FitsIn53 i.natAbs) : roundIntTo53 i = i := by
  simp only [roundIntTo53, h.round]
  split <;> omega

/-- Up to the number of bits nothing is rounded. -/
theorem lt_natAbs_of_roundIntTo53_ne {i : Int} (h : roundIntTo53 i ≠ i) : 2 ^ 53 < i.natAbs := by
  refine Nat.lt_of_not_le fun hle => ?_
  exact h (roundIntTo53_of_fits (.of_le hle))

namespace Binary64

variable {x y : Binary64} {n : Int}

theorem fraction_lt (x : Binary64) : x.fraction < 2 ^ 52 := Nat.mod_lt _ (by decide)

theorem magnitude_eq (x : Binary64) : x.magnitude = x.significand * 2 ^ x.scale :=
  Nat.shiftLeft_eq _ _

theorem significand_lt (x : Binary64) : x.significand < 2 ^ 53 := by
  have hfraction := x.fraction_lt
  unfold significand
  split <;> omega

/-- The bits are made of sign, exponent field and fraction. -/
theorem bits_eq (x : Binary64) : x.bits.toNat =
    (if x.isNegative then 1 else 0) * 2 ^ 63 + x.exponentField * 2 ^ 52 + x.fraction := by
  have hlt := x.bits.toNat_lt
  simp only [isNegative, exponentField, fraction, beq_iff_eq]
  split <;> omega

theorem ext_fields (hsign : x.isNegative = y.isNegative)
    (hexponent : x.exponentField = y.exponentField) (hfraction : x.fraction = y.fraction) :
    x = y := by
  have hbits : x.bits.toNat = y.bits.toNat := by
    rw [bits_eq, bits_eq, hsign, hexponent, hfraction]
  obtain ⟨a⟩ := x
  obtain ⟨b⟩ := y
  exact congrArg mk (UInt64.toNat_inj.mp hbits)

/-! ## Magnitudes -/

theorem magnitude_lt_of_exponentField_zero (h : x.exponentField = 0) : x.magnitude < 2 ^ 52 := by
  simpa [magnitude_eq, significand, scale, h] using x.fraction_lt

theorem magnitude_bounds (h : x.exponentField ≠ 0) :
    2 ^ (52 + x.scale) ≤ x.magnitude ∧ x.magnitude < 2 ^ (53 + x.scale) := by
  have hfraction := x.fraction_lt
  have hsignificand : x.significand = 2 ^ 52 + x.fraction := if_neg h
  rw [magnitude_eq, hsignificand, Nat.pow_add, Nat.pow_add]
  constructor
  · exact Nat.mul_le_mul_right _ (by omega)
  · exact Nat.mul_lt_mul_of_pos_right (by omega) (Nat.two_pow_pos _)

private theorem exponentField_le_of_magnitude (h : x.magnitude ≤ y.magnitude) :
    x.exponentField ≤ y.exponentField := by
  by_cases hx : x.exponentField = 0
  · omega
  · have hlow := (magnitude_bounds hx).1
    by_cases hy : y.exponentField = 0
    · have htop := magnitude_lt_of_exponentField_zero hy
      have hbase : 2 ^ 52 ≤ 2 ^ (52 + x.scale) := Nat.pow_le_pow_right (by decide) (by omega)
      omega
    · have htop := (magnitude_bounds hy).2
      have hlt : 52 + x.scale < 53 + y.scale :=
        (Nat.pow_lt_pow_iff_right (a := 2) (by decide)).mp (by omega)
      simp only [scale] at hlt
      omega

/-- The magnitude tells exponent field and fraction. -/
theorem fields_of_magnitude_eq (h : x.magnitude = y.magnitude) :
    x.exponentField = y.exponentField ∧ x.fraction = y.fraction := by
  have hexponent : x.exponentField = y.exponentField :=
    Nat.le_antisymm (exponentField_le_of_magnitude (Nat.le_of_eq h))
      (exponentField_le_of_magnitude (Nat.le_of_eq h.symm))
  refine ⟨hexponent, ?_⟩
  have hscale : x.scale = y.scale := congrArg (· - 1) hexponent
  have hsignificand : x.significand = y.significand := by
    rw [magnitude_eq, magnitude_eq, hscale] at h
    exact Nat.eq_of_mul_eq_mul_right (Nat.two_pow_pos _) h
  simp only [significand, hexponent] at hsignificand
  split at hsignificand <;> omega

/-! ## Integers -/

theorem one_pos : 0 < one := by
  unfold one
  apply Nat.pow_pos
  decide

theorem toInt?_eq_some_iff : x.toInt? = some n ↔ x.isFinite = true ∧
    x.magnitude = n.natAbs * one ∧ (n ≠ 0 → (x.isNegative = true ↔ n < 0)) := by
  simp only [toInt?, Bool.and_eq_true, beq_iff_eq]
  constructor
  · intro h
    split at h
    · rename_i hint
      obtain ⟨hfinite, hdvd⟩ := hint
      obtain ⟨k, hk⟩ := Nat.dvd_of_mod_eq_zero hdvd
      rw [hk, Nat.mul_div_cancel_left k one_pos] at h
      have hn := Option.some.inj h
      refine ⟨hfinite, ?_, fun hne => ?_⟩
      · rw [hk, Nat.mul_comm]
        congr 1
        split at hn <;> omega
      · split at hn <;> simp_all <;> omega
    · cases h
  · rintro ⟨hfinite, hmagnitude, hsign⟩
    rw [hmagnitude, if_pos ⟨hfinite, Nat.mul_mod_left _ _⟩, Nat.mul_div_cancel _ one_pos]
    by_cases hn : n = 0
    · simp [hn]
    · have hneg := hsign hn
      by_cases hlt : n < 0
      · rw [if_pos (hneg.mpr hlt)]
        exact congrArg some (by omega)
      · rw [if_neg (mt hneg.mp hlt)]
        exact congrArg some (by omega)

/-- An integer of the format is written by 53 significant bits. -/
theorem fits_of_toInt? (h : x.toInt? = some n) : FitsIn53 n.natAbs := by
  obtain ⟨-, hmagnitude, -⟩ := toInt?_eq_some_iff.mp h
  rw [magnitude_eq] at hmagnitude
  by_cases hscale : 1074 ≤ x.scale
  · refine ⟨x.significand, x.scale - 1074, x.significand_lt, ?_⟩
    have hpow : 2 ^ x.scale = 2 ^ (x.scale - 1074) * one := by
      unfold one
      exact (Nat.pow_sub_mul_pow 2 hscale).symm
    rw [hpow, ← Nat.mul_assoc] at hmagnitude
    exact (Nat.eq_of_mul_eq_mul_right one_pos hmagnitude).symm
  · have hpow : one = 2 ^ (1074 - x.scale) * 2 ^ x.scale := by
      rw [one, ← Nat.pow_add, Nat.sub_add_cancel (by omega)]
    rw [hpow, ← Nat.mul_assoc] at hmagnitude
    have hsignificand := Nat.eq_of_mul_eq_mul_right (Nat.two_pow_pos x.scale) hmagnitude
    have hle : n.natAbs ≤ x.significand := by
      rw [hsignificand]
      exact Nat.le_mul_of_pos_right _ (Nat.two_pow_pos _)
    exact ⟨n.natAbs, 0, Nat.lt_of_le_of_lt hle x.significand_lt, (Nat.mul_one _).symm⟩

theorem not_isNaN_of_isFinite (h : x.isFinite = true) : x.isNaN = false := by
  simp only [isFinite, bne_iff_ne] at h
  simp [isNaN, h]

/-- Numbers of the format that are the same integer are equal: the same bits or zeros. -/
theorem equals_of_toInt? (hx : x.toInt? = some n) (hy : y.toInt? = some n) :
    x.equals y = true := by
  obtain ⟨hxfinite, hxmagnitude, hxsign⟩ := toInt?_eq_some_iff.mp hx
  obtain ⟨hyfinite, hymagnitude, hysign⟩ := toInt?_eq_some_iff.mp hy
  simp only [equals, not_isNaN_of_isFinite hxfinite, not_isNaN_of_isFinite hyfinite,
    Bool.not_false, Bool.true_and, Bool.or_eq_true, Bool.and_eq_true, beq_iff_eq]
  by_cases hn : n = 0
  · right
    simp [isZero, hxfinite, hyfinite, hxmagnitude, hymagnitude, hn]
  · left
    obtain ⟨hexponent, hfraction⟩ := fields_of_magnitude_eq (hxmagnitude.trans hymagnitude.symm)
    refine ext_fields ?_ hexponent hfraction
    exact Bool.eq_iff_iff.mpr ((hxsign hn).trans (hysign hn).symm)

theorem toInt?_of_isZero (h : x.isZero = true) : x.toInt? = some 0 := by
  simp only [isZero, Bool.and_eq_true, beq_iff_eq] at h
  exact toInt?_eq_some_iff.mpr ⟨h.1, by simp [h.2], fun hne => absurd rfl hne⟩

/-- Equal numbers have the same bits or are both zero. -/
theorem eq_or_isZero_of_equals (h : x.equals y = true) :
    x = y ∨ x.isZero = true ∧ y.isZero = true := by
  simp only [equals, Bool.and_eq_true, Bool.or_eq_true, beq_iff_eq] at h
  exact h.2

theorem not_isNaN_of_equals (h : x.equals y = true) : x.isNaN = false := by
  simp only [equals, Bool.and_eq_true, Bool.not_eq_true'] at h
  exact h.1.1

theorem toInt?_eq_of_equals (h : x.equals y = true) : x.toInt? = y.toInt? := by
  obtain rfl | ⟨hx, hy⟩ := eq_or_isZero_of_equals h
  · rfl
  · rw [toInt?_of_isZero hx, toInt?_of_isZero hy]

theorem equals_trans {z : Binary64} (hxy : x.equals y = true) (hyz : y.equals z = true) :
    x.equals z = true := by
  obtain rfl | ⟨hx, -⟩ := eq_or_isZero_of_equals hxy
  · exact hyz
  · obtain rfl | ⟨-, hz⟩ := eq_or_isZero_of_equals hyz
    · exact hxy
    · exact equals_of_toInt? (toInt?_of_isZero hx) (toInt?_of_isZero hz)

theorem equals_self_iff : x.equals x = true ↔ x.isNaN = false := by simp [equals]

end Binary64

end ScriptDebug
