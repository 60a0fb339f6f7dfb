import ScriptDebug.Table.Key

/-!
# Which values are the same key

Nil and NaN are refused as keys.  Of all other values, two are the same key exactly when
they are the same value or the same 64-bit integer, one of them as a float.
-/

namespace ScriptDebug

namespace TableKey

variable {key : Value} {k : TableKey}

theorem toInteger?_of_isNaN {x : Binary64} (h : x.isNaN = true) :
    (Value.float x).toInteger? = none := by
  simp only [Binary64.isNaN, Bool.and_eq_true, beq_iff_eq] at h
  simp [Value.toInteger?, Binary64.toInt?, Binary64.isFinite, h.1]

/-- A 64-bit integer is filed as such, be it an integer or a float. -/
theorem ofValue_eq_integer_iff {n : Int} : ofValue key = .ok (.integer n) ↔
    ∃ i, key.toInteger? = some i ∧ i.toInt = n := by
  cases key with
  | integer i => simp [ofValue, Value.toInteger?]
  | float x =>
      cases hnan : x.isNaN with
      | true => simp [ofValue, hnan, toInteger?_of_isNaN hnan]
      | false =>
          simp only [ofValue, hnan]
          cases (Value.float x).toInteger? <;> simp
  | _ => simp [ofValue, Value.toInteger?]

/-- The value that a key was made from, unless it was a float that is an integer. -/
def value : TableKey → Value
  | .integer n => .integer (.ofInt n)
  | .string s => .string s
  | .float x => .float x
  | .boolean b => .boolean b
  | .table t => .table t
  | .userdata u => .userdata u
  | .lightUserdata p => .lightUserdata p
  | .function f => .function f
  | .thread th => .thread th

theorem eq_value_of_ofValue (h : ofValue key = .ok k) (hk : ∀ n, k ≠ .integer n) :
    key = value k := by
  cases key with
  | nil => cases h
  | float x =>
      simp only [ofValue] at h
      split at h
      · cases h
      · split at h <;> cases h
        · exact absurd rfl (hk _)
        · rfl
  | integer i => exact absurd (Except.ok.inj h).symm (hk _)
  | _ => cases h; rfl

/-- Two values are the same key when they are the same value or the same 64-bit integer. -/
theorem ofValue_eq_iff {key' : Value} (h : ofValue key = .ok k) :
    ofValue key' = .ok k ↔
      key' = key ∨ ∃ n, key.toInteger? = some n ∧ key'.toInteger? = some n := by
  constructor
  · intro h'
    by_cases hk : ∃ n, k = .integer n
    · obtain ⟨n, rfl⟩ := hk
      obtain ⟨i, hi, rfl⟩ := ofValue_eq_integer_iff.mp h
      obtain ⟨i', hi', heq⟩ := ofValue_eq_integer_iff.mp h'
      exact .inr ⟨i, hi, hi'.trans (congrArg some (Int64.toInt_inj.mp heq))⟩
    · have hvalue := eq_value_of_ofValue h fun n hn => hk ⟨n, hn⟩
      exact .inl ((eq_value_of_ofValue h' fun n hn => hk ⟨n, hn⟩).trans hvalue.symm)
  · rintro (rfl | ⟨i, hi, hi'⟩)
    · exact h
    · have hkey : ofValue key = .ok (.integer i.toInt) :=
        ofValue_eq_integer_iff.mpr ⟨i, hi, rfl⟩
      rw [← h, hkey]
      exact ofValue_eq_integer_iff.mpr ⟨i, hi', rfl⟩

/-- Only nil and NaN are refused as keys. -/
theorem ofValue_eq_error_iff {e : KeyError} : ofValue key = .error e ↔
    (key = .nil ∧ e = .nilKey) ∨ ∃ x, key = .float x ∧ x.isNaN = true ∧ e = .nanKey := by
  constructor
  · intro h
    cases key with
    | nil => exact .inl ⟨rfl, (Except.error.inj h).symm⟩
    | float x =>
        simp only [ofValue] at h
        split at h
        · rename_i hnan
          exact .inr ⟨x, rfl, hnan, (Except.error.inj h).symm⟩
        · split at h <;> cases h
    | _ => cases h
  · rintro (⟨rfl, rfl⟩ | ⟨x, rfl, hnan, rfl⟩)
    · rfl
    · simp only [ofValue, hnan]
      rfl

end TableKey

end ScriptDebug
