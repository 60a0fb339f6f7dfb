import ScriptDebug.Proofs.Table.FiniteMap

/-!
# Tables that were filled

A new table is a record once values were stored under names, and a list once they were
stored in order from 1.  A record has its names as keys and no others; a list has as many
elements as there are values, and no other keys.
-/

namespace ScriptDebug

namespace Table

variable {t : Table} {fields : List (String × Value)} {vs : List Value}

/-! ## Records -/

/-- A table whose keys are the names of fields. -/
structure IsRecord (t : Table) (fields : List (String × Value)) : Prop where
  get_eq_iff : ∀ key v, v ≠ .nil →
    (t.get key = v ↔ ∃ name, key = .string name ∧ (name, v) ∈ fields)
  metatable : t.metatable = none

/-- The writes that make a record. -/
def fieldWrites (fields : List (String × Value)) : List Write :=
  fields.map fun f => .field f.1 f.2

/-- The keys under which fields are filed. -/
def filedFields (fields : List (String × Value)) : List (TableKey × Value) :=
  fields.map fun f => (.string f.1, f.2)

theorem filterMap_fieldWrites (fields : List (String × Value)) :
    (fieldWrites fields).filterMap Write.filed? = filedFields fields := by
  rw [fieldWrites, List.filterMap_map, filedFields, ← List.filterMap_eq_map]
  rfl

theorem mem_filedFields {k : TableKey} {v : Value} :
    (k, v) ∈ filedFields fields ↔ ∃ name, k = .string name ∧ (name, v) ∈ fields := by
  rw [filedFields, List.mem_map]
  constructor
  · rintro ⟨⟨name, w⟩, hmem, heq⟩
    cases heq
    exact ⟨name, rfl, hmem⟩
  · rintro ⟨name, rfl, hmem⟩
    exact ⟨(name, v), hmem, rfl⟩

theorem nodup_filedFields (h : (fields.map Prod.fst).Nodup) :
    ((filedFields fields).map Prod.fst).Nodup := by
  have hkeys : (filedFields fields).map Prod.fst = (fields.map Prod.fst).map TableKey.string := by
    simp only [filedFields, List.map_map, Function.comp_def]
  rw [hkeys]
  exact h.map fun _ _ => TableKey.string.inj

theorem metatable_performAll_fieldWrites (t : Table) (fields : List (String × Value)) :
    (t.performAll (fieldWrites fields)).metatable = t.metatable := by
  induction fields generalizing t with
  | nil => rfl
  | cons f fields ih => exact ih (t.setField f.1 f.2)

/-- Values that are stored under distinct names in a new table make a record of it. -/
theorem isRecord_fieldWrites (hnodup : (fields.map Prod.fst).Nodup) :
    (empty.performAll (fieldWrites fields)).IsRecord fields := by
  have hholds := Holds.empty.performAll (fieldWrites fields)
  rw [filterMap_fieldWrites] at hholds
  refine ⟨?_, metatable_performAll_fieldWrites empty fields⟩
  intro key v hv
  constructor
  · intro hget
    cases hkey : TableKey.ofValue key with
    | error e => exact absurd ((get_of_error hkey _).symm.trans hget).symm hv
    | ok k =>
        rw [get_of_ok hkey, hholds.read] at hget
        by_cases hmem : ∃ w, (k, w) ∈ filedFields fields
        · obtain ⟨w, hw⟩ := hmem
          rw [lastWrite_of_mem _ (nodup_filedFields hnodup) hw] at hget
          subst hget
          obtain ⟨name, rfl, hname⟩ := mem_filedFields.mp hw
          exact ⟨name, TableKey.eq_value_of_ofValue hkey fun _ => TableKey.noConfusion, hname⟩
        · rw [lastWrite_of_not_mem fun w hw => hmem ⟨w, hw⟩] at hget
          exact absurd hget.symm hv
  · rintro ⟨name, rfl, hname⟩
    rw [get_of_ok rfl, hholds.read]
    exact lastWrite_of_mem _ (nodup_filedFields hnodup) (mem_filedFields.mpr ⟨name, rfl, hname⟩)

/-! ## Lists -/

/-- A table with values at 1, 2, … and no other keys. -/
structure IsList (t : Table) (vs : List Value) : Prop where
  length_eq : t.length = vs.length
  getIndex_eq : ∀ (i : Nat) v, vs[i]? = some v → t.getIndex (i + 1) = v
  index_of_get : ∀ key, t.get key ≠ .nil →
    ∃ n, key.toInteger? = some n ∧ 1 ≤ n.toInt ∧ n.toInt ≤ vs.length
  metatable : t.metatable = none

/-- Storing right behind the array of a table without other keys makes the array longer. -/
theorem setIndex_push (a : Array Value) (mt : Option TableId) {v : Value} (hv : v ≠ .nil) :
    setIndex ⟨a, [], mt⟩ (a.size + 1) v = ⟨a.push v, [], mt⟩ := by
  have habsorb : absorb ⟨a.push v, [], mt⟩ = ⟨a.push v, [], mt⟩ := by
    rw [absorb]
    rfl
  unfold setIndex
  rw [if_neg (by dsimp only; omega), if_pos rfl, if_neg hv, habsorb]

/-- Values that are stored in order end up in the array. -/
theorem foldl_setIndex (a : Array Value) (mt : Option TableId) (hvs : ∀ v ∈ vs, v ≠ .nil) :
    (vs.zipIdx (a.size + 1)).foldl (fun t (v, i) => setIndex t i v) ⟨a, [], mt⟩ =
      ⟨a ++ vs.toArray, [], mt⟩ := by
  induction vs generalizing a with
  | nil => simp
  | cons v vs ih =>
      have hfirst : setIndex ⟨a, [], mt⟩ ((a.size + 1 : Nat) : Int) v = ⟨a.push v, [], mt⟩ :=
        setIndex_push a mt (hvs v List.mem_cons_self)
      have hrest := ih (a.push v) fun w hw => hvs w (List.mem_cons_of_mem _ hw)
      rw [Array.size_push] at hrest
      rw [List.zipIdx_cons, List.foldl_cons]
      dsimp only
      rw [hfirst, hrest]
      simp

/-- A new table into which values are stored in order. -/
def ofValues (vs : List Value) : Table :=
  (vs.zipIdx 1).foldl (fun t (v, i) => setIndex t i v) empty

theorem ofValues_eq (hvs : ∀ v ∈ vs, v ≠ .nil) : ofValues vs = ⟨vs.toArray, [], none⟩ :=
  (foldl_setIndex #[] none hvs).trans (by rw [Array.empty_append])

theorem isList_ofValues (hvs : ∀ v ∈ vs, v ≠ .nil) : (ofValues vs).IsList vs := by
  rw [ofValues_eq hvs]
  refine ⟨rfl, ?_, ?_, rfl⟩
  · intro i v hv
    have hi : i < vs.length := (List.getElem?_eq_some_iff.mp hv).1
    have hplace : ((i : Int) + 1 - 1).toNat = i := by omega
    unfold getIndex
    rw [if_pos (by simp only [List.size_toArray]; omega), hplace, Array.getD_eq_getD_getElem?,
      List.getElem?_toArray, hv, Option.getD_some]
  · intro key hkey
    cases hfiled : TableKey.ofValue key with
    | error e => exact absurd (get_of_error hfiled _) hkey
    | ok k =>
        rw [get_of_ok hfiled] at hkey
        cases k with
        | integer n =>
            obtain ⟨i, hi, rfl⟩ := TableKey.ofValue_eq_integer_iff.mp hfiled
            refine ⟨i, hi, ?_⟩
            by_contra hout
            apply hkey
            rw [read_integer, if_neg (by simpa using hout)]
            rfl
        | _ => exact absurd rfl hkey

end Table

end ScriptDebug
