import ScriptDebug.Value.Basic

/-!
# The last value written

What a sequence of writes leaves in a storage whose places keep their values until they
are written again: the last value written to a place, or what it held before.
-/

namespace ScriptDebug

variable {κ : Type} [DecidableEq κ]

theorem lookup_cons_eq_ite {α : Type} (k : κ) (a : α) (l : List (κ × α)) (k' : κ) :
    ((k, a) :: l).lookup k' = if k' = k then some a else l.lookup k' := by
  rw [List.lookup_cons]
  by_cases hk : k' = k
  · simp [hk]
  · simp only [beq_eq_false_iff_ne.mpr hk, if_neg hk]

/-- What a place holds after writes, given what every place held before. -/
def lastWrite (before : κ → Value) (ws : List (κ × Value)) (k : κ) : Value :=
  (ws.reverse.lookup k).getD (before k)

@[simp] theorem lastWrite_nil (before : κ → Value) (k : κ) : lastWrite before [] k = before k := rfl

/-- The later writes come on top of what the earlier ones left. -/
theorem lastWrite_append (before : κ → Value) (ws ws' : List (κ × Value)) (k : κ) :
    lastWrite before (ws ++ ws') k = lastWrite (lastWrite before ws) ws' k := by
  simp only [lastWrite, List.reverse_append, List.lookup_append]
  cases ws'.reverse.lookup k <;> rfl

/-- One write is a matter of its own place alone. -/
theorem lastWrite_singleton (before : κ → Value) (k : κ) (v : Value) (k' : κ) :
    lastWrite before [(k, v)] k' = if k' = k then v else before k' := by
  simp only [lastWrite, List.reverse_singleton, lookup_cons_eq_ite, List.lookup_nil]
  split <;> rfl

/-- A place without writes holds what it held. -/
theorem lastWrite_of_not_mem {before : κ → Value} {ws : List (κ × Value)} {k : κ}
    (h : ∀ v, (k, v) ∉ ws) : lastWrite before ws k = before k := by
  have hnone : ws.reverse.lookup k = none := by
    rw [List.lookup_eq_none_iff]
    rintro ⟨k', v⟩ hmem
    rw [bne_iff_ne]
    rintro rfl
    exact h v (List.mem_reverse.mp hmem)
  rw [lastWrite, hnone, Option.getD_none]

/-- Where no place is written twice, what was written is left. -/
theorem lastWrite_of_mem (before : κ → Value) {ws : List (κ × Value)} {k : κ} {v : Value}
    (hnodup : (ws.map Prod.fst).Nodup) (h : (k, v) ∈ ws) : lastWrite before ws k = v := by
  obtain ⟨earlier, later, rfl⟩ := List.append_of_mem h
  rw [List.map_append, List.map_cons] at hnodup
  have hlater : ∀ v', (k, v') ∉ later := by
    intro v' hmem
    have hk : k ∉ later.map Prod.fst := (List.nodup_cons.mp (List.nodup_append.mp hnodup).2.1).1
    exact hk (List.mem_map.mpr ⟨(k, v'), hmem, rfl⟩)
  rw [lastWrite_append, ← List.singleton_append, lastWrite_append, lastWrite_of_not_mem hlater,
    lastWrite_singleton, if_pos rfl]

/-- Writes of what a function tells leave what it tells. -/
theorem lastWrite_map (before : κ → Value) (g : κ → Value) (ks : List κ) (k' : κ) :
    lastWrite before (ks.map fun k => (k, g k)) k' = if k' ∈ ks then g k' else before k' := by
  induction ks generalizing before with
  | nil => rfl
  | cons k ks ih =>
    rw [List.map_cons, ← List.singleton_append, lastWrite_append, ih, lastWrite_singleton]
    by_cases hk : k' = k
    · simp [hk]
    · simp [hk]

end ScriptDebug
