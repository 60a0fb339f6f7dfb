import Mathlib.Data.List.Nodup
import ScriptDebug.Proofs.Storage.LastWrite
import ScriptDebug.Table.Basic

/-!
# Canonical tables

The array of a canonical table ends in a value, and its entries are apart from the
array: no nil, no key twice, and no key that lies in the array or would continue it.
Every write keeps tables canonical, whichever of its ways it takes.

## Implementation notes

A write into the array trims it, a write behind the array absorbs the entries that
follow.  Before absorbing, an entry may lie right behind the array, so what is assumed
there is only that the array itself is clear of entries (`ClearTo`).
-/

namespace ScriptDebug

namespace Table

/-- No entry has an integer key from 1 to `n`. -/
def ClearTo (entries : List (TableKey × Value)) (n : Nat) : Prop :=
  ∀ i : Int, 1 ≤ i → i ≤ n → .integer i ∉ entries.map Prod.fst

/-- The entries are no nils and under distinct keys. -/
structure ProperEntries (entries : List (TableKey × Value)) : Prop where
  value : ∀ e ∈ entries, e.2 ≠ .nil
  distinct : (entries.map Prod.fst).Nodup

structure Canonical (t : Table) : Prop where
  last : t.array.back? ≠ some .nil
  entries : ProperEntries t.entries
  apart : ClearTo t.entries (t.array.size + 1)

variable {t : Table} {k : TableKey} {v : Value} {entries : List (TableKey × Value)} {n : Nat}

/-! ## Entries -/

theorem lookup_eraseEntry (entries : List (TableKey × Value)) (k k' : TableKey) :
    (eraseEntry entries k).lookup k' = if k' = k then none else entries.lookup k' := by
  induction entries with
  | nil => simp [eraseEntry]
  | cons e entries ih =>
      obtain ⟨k'', v⟩ := e
      rw [lookup_cons_eq_ite]
      by_cases hk : k'' = k
      · have herase : eraseEntry ((k'', v) :: entries) k = eraseEntry entries k := by
          simp [eraseEntry, hk]
        rw [herase, ih, hk]
        split <;> rfl
      · have herase : eraseEntry ((k'', v) :: entries) k = (k'', v) :: eraseEntry entries k := by
          simp [eraseEntry, hk]
        rw [herase, lookup_cons_eq_ite, ih]
        by_cases hk' : k' = k''
        · have hne : k' ≠ k := hk' ▸ hk
          simp [hk', hk]
        · simp [hk']

theorem mem_keys_eraseEntry {k k' : TableKey} :
    k' ∈ (eraseEntry entries k).map Prod.fst ↔ k' ∈ entries.map Prod.fst ∧ k' ≠ k := by
  simp only [eraseEntry, List.mem_map, List.mem_filter, bne_iff_ne]
  constructor
  · rintro ⟨e, ⟨he, hne⟩, rfl⟩
    exact ⟨⟨e, he, rfl⟩, hne⟩
  · rintro ⟨⟨e, he, rfl⟩, hne⟩
    exact ⟨e, ⟨he, hne⟩, rfl⟩

theorem lookup_eq_none_iff_not_mem_keys :
    entries.lookup k = none ↔ k ∉ entries.map Prod.fst := by
  rw [List.lookup_eq_none_iff, List.mem_map]
  constructor
  · rintro h ⟨e, he, rfl⟩
    simpa using h e he
  · intro h e he
    apply bne_iff_ne.mpr
    rintro rfl
    exact h ⟨e, he, rfl⟩

namespace ProperEntries

theorem nil : ProperEntries [] := ⟨fun e he => by simp at he, List.nodup_nil⟩

theorem erase (h : ProperEntries entries) (k : TableKey) :
    ProperEntries (eraseEntry entries k) where
  value e he := h.value e (List.mem_of_mem_filter he)
  distinct := h.distinct.sublist (List.filter_sublist.map Prod.fst)

theorem cons (h : ProperEntries entries) (hv : v ≠ .nil) (hk : k ∉ entries.map Prod.fst) :
    ProperEntries ((k, v) :: entries) where
  value := by
    intro e he
    obtain rfl | he := List.mem_cons.mp he
    · exact hv
    · exact h.value e he
  distinct := List.nodup_cons.mpr ⟨hk, h.distinct⟩

/-- A value that is found is no nil. -/
theorem ne_nil_of_lookup (h : ProperEntries entries) (hk : entries.lookup k = some v) :
    v ≠ .nil := by
  obtain ⟨before, after, rfl, -⟩ := List.lookup_eq_some_iff.mp hk
  exact h.value (k, v) (by simp)

end ProperEntries

namespace ClearTo

theorem nil : ClearTo [] n := fun _ _ _ => List.not_mem_nil

theorem mono {m : Nat} (h : ClearTo entries n) (hmn : m ≤ n) : ClearTo entries m :=
  fun i h1 hi => h i h1 (by omega)

theorem erase (h : ClearTo entries n) (k : TableKey) : ClearTo (eraseEntry entries k) n :=
  fun i h1 hi hmem => h i h1 hi (mem_keys_eraseEntry.mp hmem).1

/-- Without the next key, the entries are clear of one key more. -/
theorem succ (h : ClearTo entries n) (hk : .integer (n + 1) ∉ entries.map Prod.fst) :
    ClearTo entries (n + 1) := by
  intro i h1 hi
  by_cases hlast : i = n + 1
  · rw [hlast]
    exact hk
  · exact h i h1 (by omega)

theorem lookup (h : ClearTo entries n) {i : Int} (h1 : 1 ≤ i) (hi : i ≤ n) :
    entries.lookup (.integer i) = none :=
  lookup_eq_none_iff_not_mem_keys.mpr (h i h1 hi)

end ClearTo

/-! ## The ways of a write -/

theorem Canonical.empty : Canonical .empty := ⟨by simp [Table.empty], .nil, .nil⟩

/-- Storing outside the array, anywhere but right behind it. -/
theorem Canonical.putEntry (h : t.Canonical)
    (hk : ∀ i : Int, k = .integer i → i < 1 ∨ (t.array.size + 1 : Nat) < i) (v : Value) :
    (t.putEntry k v).Canonical := by
  have herased : k ∉ (eraseEntry t.entries k).map Prod.fst := by
    intro hmem
    exact (mem_keys_eraseEntry.mp hmem).2 rfl
  by_cases hv : v = .nil
  · simp only [Table.putEntry, if_pos hv]
    exact ⟨h.last, h.entries.erase k, h.apart.erase k⟩
  · simp only [Table.putEntry, if_neg hv]
    refine ⟨h.last, (h.entries.erase k).cons hv herased, ?_⟩
    intro i h1 hi hmem
    obtain heq | hmem := List.mem_cons.mp hmem
    · have hfar := hk i heq.symm
      dsimp only at hi
      omega
    · exact h.apart.erase k i h1 hi hmem

private theorem exists_eq_popWhile (a : Array Value) : ∃ dropped,
    a = a.popWhile (· == .nil) ++ Array.replicate dropped .nil ∧
      (a.popWhile (· == .nil)).back? ≠ some .nil := by
  fun_induction Array.popWhile (· == Value.nil) a with
  | case1 a hsize hnil ih =>
      obtain ⟨dropped, heq, hlast⟩ := ih
      obtain ⟨b, v, rfl⟩ := Array.eq_push_of_size_ne_zero (Nat.ne_of_gt hsize)
      rw [Array.pop_push] at heq hlast ⊢
      refine ⟨dropped + 1, ?_, hlast⟩
      have hv : v = .nil := by simpa using hnil
      rw [Array.replicate_succ, ← Array.push_append, ← heq, hv]
  | case2 a hsize hvalue =>
      obtain ⟨b, v, rfl⟩ := Array.eq_push_of_size_ne_zero (Nat.ne_of_gt hsize)
      refine ⟨0, by simp, ?_⟩
      rw [Array.back?_push]
      rintro ⟨rfl⟩
      simp at hvalue
  | case3 a hsize =>
      have hempty : a = #[] := Array.eq_empty_of_size_eq_zero (by omega)
      subst hempty
      exact ⟨0, rfl, by simp⟩

/-- Trimming drops nils from the end of the array until a value ends it. -/
theorem exists_eq_trim (t : Table) : ∃ dropped,
    t.array = t.trim.array ++ Array.replicate dropped .nil ∧ t.trim.array.back? ≠ some .nil :=
  exists_eq_popWhile t.array

theorem Canonical.trim (hentries : ProperEntries t.entries)
    (hclear : ClearTo t.entries (t.array.size + 1)) : t.trim.Canonical := by
  obtain ⟨dropped, heq, hlast⟩ := t.exists_eq_trim
  have hsize : t.trim.array.size ≤ t.array.size := by
    rw [heq, Array.size_append]
    exact Nat.le_add_right _ _
  exact ⟨hlast, hentries, hclear.mono (by omega)⟩

/-- What absorbing leaves: every entry that continues the array goes into it, one by one. -/
theorem Canonical.absorb (hlast : t.array.back? ≠ some .nil) (hentries : ProperEntries t.entries)
    (hclear : ClearTo t.entries t.array.size) : t.absorb.Canonical := by
  fun_induction Table.absorb t with
  | case1 t hnone => exact ⟨hlast, hentries, hclear.succ (lookup_eq_none_iff_not_mem_keys.mp hnone)⟩
  | case2 t v hsome _ ih =>
      have hv := hentries.ne_nil_of_lookup hsome
      apply ih
      · rw [Array.back?_push]
        rintro ⟨rfl⟩
        exact hv rfl
      · exact hentries.erase _
      · rw [Array.size_push]
        apply (hclear.erase _).succ
        intro hmem
        exact (mem_keys_eraseEntry.mp hmem).2 rfl

/-- Absorbing ends after at most as many rounds as there are entries. -/
theorem size_absorb_le (t : Table) : t.absorb.array.size ≤ t.array.size + t.entries.length := by
  fun_induction Table.absorb t with
  | case1 t hnone => exact Nat.le_add_right _ _
  | case2 t v hsome hlt ih =>
      simp only [Array.size_push] at ih
      omega

theorem Canonical.setIndex (h : t.Canonical) (n : Int) (v : Value) :
    (t.setIndex n v).Canonical := by
  unfold Table.setIndex
  split
  · apply Canonical.trim (t := { t with array := t.array.setIfInBounds (n - 1).toNat v }) h.entries
    rw [Array.size_setIfInBounds]
    exact h.apart
  · split
    · split
      · exact h
      · rename_i hv
        apply Canonical.absorb
        · rw [Array.back?_push]
          rintro ⟨rfl⟩
          exact hv rfl
        · exact h.entries
        · rw [Array.size_push]
          exact h.apart
    · apply h.putEntry
      rintro i ⟨rfl⟩
      omega

end Table

end ScriptDebug
