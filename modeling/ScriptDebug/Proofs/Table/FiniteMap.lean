import ScriptDebug.Proofs.Table.Canonical
import ScriptDebug.Proofs.Table.Keys

/-!
# Tables are finite maps with a border

Under every key a table holds the value that was last stored there, by whichever way;
storing nil removes it.  The length of a table is a border: where it is not 0 there is a
value at that index, and there is none at the next.

## Implementation notes

`read` is the view of a table as a map from keys to values, nil for all keys without
one.  Absorbing and trimming change where values are kept and nothing in this view.
-/

namespace ScriptDebug

namespace Table

/-- The value that a table holds under a key. -/
def read (t : Table) : TableKey → Value
  | .integer n => t.getIndex n
  | k => t.entry k

variable {t : Table} {k : TableKey} {key v : Value}

theorem get_of_ok (h : TableKey.ofValue key = .ok k) (t : Table) : t.get key = t.read k := by
  simp only [get, h]
  cases k <;> rfl

theorem get_of_error {e : KeyError} (h : TableKey.ofValue key = .error e) (t : Table) :
    t.get key = .nil := by
  simp only [get, h]

theorem read_integer (t : Table) (n : Int) : t.read (.integer n) =
    if 1 ≤ n ∧ n ≤ t.array.size then (t.array[(n - 1).toNat]?).getD .nil
    else t.entry (.integer n) := by
  simp only [read, getIndex, Array.getD_eq_getD_getElem?]

/-- Away from the array a key is read from the entries. -/
theorem read_of_outside (t : Table)
    (hk : ∀ n : Int, k = .integer n → ¬ (1 ≤ n ∧ n ≤ t.array.size)) : t.read k = t.entry k := by
  cases k with
  | integer n => rw [read_integer, if_neg (hk n rfl)]
  | _ => rfl

theorem entry_of_clear {n : Nat} (h : ClearTo t.entries n) {i : Int} (h1 : 1 ≤ i) (hi : i ≤ n) :
    t.entry (.integer i) = .nil := by
  rw [entry, h.lookup h1 hi]
  rfl

/-! ## Moving values -/

/-- What is trimmed away reads as nil before and after. -/
theorem read_trim (h : ClearTo t.entries t.array.size) (k : TableKey) :
    t.trim.read k = t.read k := by
  obtain ⟨dropped, heq, -⟩ := t.exists_eq_trim
  have hsize : t.array.size = t.trim.array.size + dropped := by
    rw [← Array.size_replicate (n := dropped) (v := Value.nil), ← Array.size_append, ← heq]
  cases k with
  | integer n =>
      have hentry : t.trim.entry (.integer n) = t.entry (.integer n) := rfl
      rw [read_integer, read_integer, hentry]
      by_cases hkept : 1 ≤ n ∧ n ≤ t.trim.array.size
      · rw [if_pos hkept, if_pos (by omega), heq, Array.getElem?_append_left (by omega)]
      · rw [if_neg hkept]
        split
        · rename_i hin
          rw [entry_of_clear h hin.1 hin.2, heq, Array.getElem?_append_right (by omega),
            Array.getElem?_replicate]
          split <;> rfl
        · rfl
  | _ => rfl

/-- One round of absorbing moves a value to where the same key finds it. -/
theorem read_push_erase (t : Table) {v : Value} (hv : t.entries.lookup t.nextKey = some v)
    (k : TableKey) :
    Table.read { t with array := t.array.push v, entries := eraseEntry t.entries t.nextKey } k =
      t.read k := by
  have hentry : ∀ k', k' ≠ t.nextKey → Table.entry
      { t with array := t.array.push v, entries := eraseEntry t.entries t.nextKey } k' =
        t.entry k' := by
    intro k' hne
    simp only [entry, lookup_eraseEntry, if_neg hne]
  cases k with
  | integer n =>
      rw [read_integer, read_integer]
      simp only [Array.size_push, Array.getElem?_push]
      by_cases hnext : n = t.array.size + 1
      · have hold : t.entry (.integer n) = v := by
          rw [entry, hnext]
          exact congrArg (·.getD .nil) hv
        rw [if_pos (by omega), if_pos (by omega), if_neg (by omega), hold]
        rfl
      · have hne : TableKey.integer n ≠ t.nextKey := by
          rintro ⟨rfl⟩
          exact hnext rfl
        rw [hentry _ hne]
        by_cases hin : 1 ≤ n ∧ n ≤ t.array.size
        · rw [if_pos (by omega), if_pos hin, if_neg (by omega)]
        · rw [if_neg (by omega), if_neg hin]
  | _ => exact hentry _ (by rintro ⟨⟩)

theorem read_absorb (t : Table) (k : TableKey) : t.absorb.read k = t.read k := by
  fun_induction absorb t with
  | case1 t hnone => rfl
  | case2 t v hsome hlt ih => rw [ih, t.read_push_erase hsome]

/-! ## Writing -/

theorem entry_putEntry (t : Table) (k : TableKey) (v : Value) (k' : TableKey) :
    (t.putEntry k v).entry k' = if k' = k then v else t.entry k' := by
  by_cases hv : v = .nil
  · simp only [putEntry, if_pos hv, entry, lookup_eraseEntry]
    split
    · exact hv.symm
    · rfl
  · simp only [putEntry, if_neg hv, entry, lookup_cons_eq_ite, lookup_eraseEntry]
    split <;> rfl

theorem read_putEntry (hk : ∀ n : Int, k = .integer n → ¬ (1 ≤ n ∧ n ≤ t.array.size)) (v : Value)
    (k' : TableKey) : (t.putEntry k v).read k' = if k' = k then v else t.read k' := by
  by_cases hk' : k' = k
  · subst hk'
    rw [read_of_outside (t.putEntry k' v) hk, entry_putEntry, if_pos rfl, if_pos rfl]
  · rw [if_neg hk']
    cases k' with
    | integer n =>
        have hentry := t.entry_putEntry k v (.integer n)
        rw [if_neg hk'] at hentry
        rw [read_integer, read_integer, hentry]
        rfl
    | _ => exact (t.entry_putEntry k v _).trans (if_neg hk')

theorem read_setInArray (t : Table) {n : Int} (hn : 1 ≤ n ∧ n ≤ t.array.size) (v : Value)
    (k : TableKey) :
    Table.read { t with array := t.array.setIfInBounds (n - 1).toNat v } k =
      if k = .integer n then v else t.read k := by
  cases k with
  | integer m =>
      rw [read_integer, read_integer]
      simp only [Array.size_setIfInBounds, Array.getElem?_setIfInBounds, TableKey.integer.injEq]
      by_cases hm : m = n
      · subst hm
        rw [if_pos hn, if_pos rfl, if_pos (by omega), if_pos rfl]
        rfl
      · rw [if_neg hm]
        by_cases hin : 1 ≤ m ∧ m ≤ t.array.size
        · rw [if_pos hin, if_pos hin, if_neg (by omega)]
        · rw [if_neg hin, if_neg hin]
          rfl
  | _ => rfl

theorem read_pushArray (t : Table) (v : Value) (k : TableKey) :
    Table.read { t with array := t.array.push v } k =
      if k = .integer (t.array.size + 1) then v else t.read k := by
  cases k with
  | integer m =>
      rw [read_integer, read_integer]
      simp only [Array.size_push, Array.getElem?_push, TableKey.integer.injEq]
      by_cases hm : m = t.array.size + 1
      · rw [if_pos (by omega), if_pos (by omega), if_pos hm]
        rfl
      · rw [if_neg hm]
        by_cases hin : 1 ≤ m ∧ m ≤ t.array.size
        · rw [if_pos (by omega), if_pos hin, if_neg (by omega)]
        · rw [if_neg (by omega), if_neg hin]
          rfl
  | _ => rfl

/-- Whichever way a write under an integer key takes, it stores the value there alone. -/
theorem Canonical.read_setIndex (h : t.Canonical) (n : Int) (v : Value) (k : TableKey) :
    (t.setIndex n v).read k = if k = .integer n then v else t.read k := by
  unfold Table.setIndex
  split
  · rename_i hn
    rw [read_trim, read_setInArray t hn]
    rw [Array.size_setIfInBounds]
    exact h.apart.mono (Nat.le_succ _)
  · rename_i hn
    split
    · rename_i hnext
      subst hnext
      split
      · rename_i hv
        have hnil : t.read (.integer (t.array.size + 1)) = .nil := by
          rw [read_integer, if_neg hn, entry_of_clear h.apart (by omega) (by simp)]
        split
        · rename_i hk
          rw [hk, hnil, hv]
        · rfl
      · rw [read_absorb, read_pushArray]
    · apply read_putEntry
      rintro i ⟨rfl⟩
      exact hn

/-! ## Sequences of writes -/

/-- A write into a table: under any value, an index or a name. -/
inductive Write where
  | value (key v : Value)
  | index (n : Int64) (v : Value)
  | field (name : String) (v : Value)

/-- The key that a write files its value under, unless it is refused. -/
def Write.filed? : Write → Option (TableKey × Value)
  | .value key v => (TableKey.ofValue key).toOption.map fun k => (k, v)
  | .index n v => some (.integer n.toInt, v)
  | .field name v => some (.string name, v)

/-- The table after a write; one that is refused changes nothing. -/
def perform (t : Table) : Write → Table
  | .value key v =>
    match t.set key v with
    | .ok t => t
    | .error _ => t
  | .index n v => t.setIndex n.toInt v
  | .field name v => t.setField name v

/-- The table after a sequence of writes. -/
def performAll (t : Table) (ws : List Write) : Table := ws.foldl perform t

theorem set_of_ok (h : TableKey.ofValue key = .ok k) (v : Value) :
    t.set key v = .ok (t.perform (.value key v)) := by
  simp only [perform, set, h]
  cases k <;> rfl

theorem set_of_error {e : KeyError} (h : TableKey.ofValue key = .error e) (v : Value) :
    t.set key v = .error e ∧ t.perform (.value key v) = t := by
  simp only [perform, set, h, and_self]

/-- A table that is canonical holds what a map from keys to values does. -/
structure Holds (t : Table) (content : TableKey → Value) : Prop where
  canonical : t.Canonical
  read : ∀ k, t.read k = content k

namespace Holds

variable {content : TableKey → Value}

theorem empty : Holds .empty fun _ => .nil := by
  refine ⟨.empty, ?_⟩
  intro k
  cases k with
  | integer n =>
      rw [read_integer, if_neg]
      · rfl
      · intro hn
        have hsize : Table.empty.array.size = 0 := rfl
        omega
  | _ => rfl

theorem setIndex (h : Holds t content) (n : Int) (v : Value) :
    Holds (t.setIndex n v) (lastWrite content [(.integer n, v)]) := by
  refine ⟨h.canonical.setIndex n v, ?_⟩
  intro k
  rw [h.canonical.read_setIndex, lastWrite_singleton, h.read]

/-- Storing under a key that is no integer. -/
theorem putEntry (h : Holds t content) (hk : ∀ n, k ≠ .integer n) (v : Value) :
    Holds (t.putEntry k v) (lastWrite content [(k, v)]) := by
  refine ⟨h.canonical.putEntry (fun i hi => absurd hi (hk i)) v, ?_⟩
  intro k'
  rw [read_putEntry fun n hn => absurd hn (hk n), lastWrite_singleton, h.read]

/-- What one write preserves: the table goes along with the map. -/
theorem perform (h : Holds t content) (w : Write) :
    Holds (t.perform w) (lastWrite content w.filed?.toList) := by
  cases w with
  | value key v =>
      simp only [Table.perform, Write.filed?, set]
      cases hkey : TableKey.ofValue key with
      | error e => exact h
      | ok k =>
          cases k with
          | integer n => exact h.setIndex n v
          | _ => exact h.putEntry (fun _ => TableKey.noConfusion) v
  | index n v => exact h.setIndex n.toInt v
  | field name v => exact h.putEntry (fun _ => TableKey.noConfusion) v

/-- What a sequence of writes preserves. -/
theorem performAll (h : Holds t content) (ws : List Write) :
    Holds (t.performAll ws) (lastWrite content (ws.filterMap Write.filed?)) := by
  induction ws generalizing t content with
  | nil => exact h
  | cons w ws ih =>
      have hrest := ih (h.perform w)
      have hwrites : (w :: ws).filterMap Write.filed? =
          w.filed?.toList ++ ws.filterMap Write.filed? := by
        simp only [List.filterMap_cons]
        cases w.filed? <;> rfl
      refine ⟨hrest.canonical, ?_⟩
      intro k
      rw [hwrites, lastWrite_append]
      exact hrest.read k

/-- The last value of the array is at the length, and nothing at the next index. -/
theorem border (h : Holds t content) : t.getIndex (t.length + 1) = .nil ∧
    (t.length = 0 ∨ 0 < t.length ∧ t.getIndex t.length ≠ .nil) := by
  constructor
  · have hnext : t.getIndex (t.length + 1) = t.entry (.integer (t.length + 1)) := by
      unfold getIndex length
      rw [if_neg (by omega)]
    rw [hnext]
    exact entry_of_clear h.canonical.apart (by omega) (by simp [length])
  · by_cases hsize : t.length = 0
    · exact .inl hsize
    · refine .inr ⟨Nat.pos_of_ne_zero hsize, ?_⟩
      obtain ⟨a, v, harray⟩ := Array.eq_push_of_size_ne_zero hsize
      have hv : v ≠ .nil := by
        have hlast := h.canonical.last
        rw [harray, Array.back?_push] at hlast
        rintro rfl
        exact hlast rfl
      have hread : t.read (.integer t.length) = v := by
        have hlength : t.length = a.size + 1 := by rw [length, harray, Array.size_push]
        have hplace : ((t.length : Int) - 1).toNat = a.size := by omega
        have hin : 1 ≤ (t.length : Int) ∧ (t.length : Int) ≤ t.array.size :=
          ⟨by omega, Int.le_of_eq rfl⟩
        rw [read_integer, if_pos hin, hplace, harray, Array.getElem?_push_size]
        rfl
      exact fun hnil => hv (hread.symm.trans hnil)

end Holds

/-- After any writes into an empty table, every key reads as what was last stored under it.
Only nil and NaN are no keys; two other values are the same key when they are the same
value or the same 64-bit integer.  The length is a border, the array and the entries are
apart, and absorbing ends after at most as many rounds as there are entries. -/
theorem writes_refine_map (ws : List Write) :
    let t := Table.empty.performAll ws
    let stored := lastWrite (fun _ => .nil) (ws.filterMap Write.filed?)
    ((∀ key k, TableKey.ofValue key = .ok k → t.get key = stored k) ∧
      (∀ n : Int64, t.getIndex n.toInt = stored (.integer n.toInt)) ∧
      ∀ name, t.getField name = stored (.string name)) ∧
    (∀ key k, TableKey.ofValue key = .ok k →
      (∀ v, t.set key v = .ok (t.perform (.value key v))) ∧
      ∀ key', TableKey.ofValue key' = .ok k ↔
        key' = key ∨ ∃ n, key.toInteger? = some n ∧ key'.toInteger? = some n) ∧
    (∀ key e, TableKey.ofValue key = .error e →
      (∀ v, t.set key v = .error e ∧ t.perform (.value key v) = t) ∧ t.get key = .nil) ∧
    (∀ key e, TableKey.ofValue key = .error e ↔
      (key = .nil ∧ e = .nilKey) ∨ ∃ x, key = .float x ∧ x.isNaN = true ∧ e = .nanKey) ∧
    (t.getIndex (t.length + 1) = .nil ∧
      (t.length = 0 ∨ 0 < t.length ∧ t.getIndex t.length ≠ .nil)) ∧
    t.Canonical ∧
    ∀ v, Table.length { t with array := t.array.push v }.absorb ≤
      t.length + 1 + t.entries.length := by
  intro t stored
  have hholds : Holds t stored := Holds.empty.performAll ws
  refine ⟨⟨?_, ?_, ?_⟩, ?_, ?_, ?_, hholds.border, hholds.canonical, ?_⟩
  · intro key k hkey
    rw [get_of_ok hkey]
    exact hholds.read k
  · intro n
    exact hholds.read (.integer n.toInt)
  · intro name
    exact hholds.read (.string name)
  · intro key k hkey
    exact ⟨set_of_ok hkey, fun key' => TableKey.ofValue_eq_iff hkey⟩
  · intro key e hkey
    exact ⟨set_of_error hkey, get_of_error hkey t⟩
  · intro key e
    exact TableKey.ofValue_eq_error_iff
  · intro v
    have hrounds := size_absorb_le { t with array := t.array.push v }
    rw [Array.size_push] at hrounds
    exact hrounds

end Table

end ScriptDebug
