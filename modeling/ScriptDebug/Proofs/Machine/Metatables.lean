import ScriptDebug.Scenario.Session

/-!
# Metatables and user values

Tables and full userdata have metatables of their own; all other values share one with the
values of their kind.  Setting the metatable of a value sets it for its owner, and for
nothing else (`MetatableSet`); user values belong to full userdata in the same way
(`UserValueSet`).  What is refused has no effect.

## Implementation notes

`Value.metatableOwner` tells whom a metatable belongs to, and `Value.kind` which shared one
is read and set.  For values without their own the two divide alike
(`metatableOwner_eq_iff_kind_eq`).
-/

namespace ScriptDebug

/-- Whose a metatable is: one object's, or that of all values of a kind. -/
inductive MetatableOwner where
  | table (t : TableId)
  | userdata (u : UserdataId)
  | nils | booleans | numbers | strings | functions | lightUserdata | threads
  deriving DecidableEq

/-- Whether each value of a kind has a metatable of its own. -/
def ValueKind.ownsMetatable : ValueKind → Bool
  | table | userdata => true
  | _ => false

namespace Value

/-- The owner of the metatable of a value. -/
def metatableOwner : Value → MetatableOwner
  | nil => .nils
  | boolean _ => .booleans
  | integer _ | float _ => .numbers
  | string _ => .strings
  | table t => .table t
  | function _ => .functions
  | userdata u => .userdata u
  | lightUserdata _ => .lightUserdata
  | thread _ => .threads

variable {v w : Value}

theorem kind_eq_of_metatableOwner_eq (h : w.metatableOwner = v.metatableOwner) :
    w.kind = v.kind := by
  cases v <;> cases w <;> first | rfl | cases h

/-- Values without a metatable of their own share one exactly with their kind. -/
theorem metatableOwner_eq_iff_kind_eq (hv : v.kind.ownsMetatable = false) :
    w.metatableOwner = v.metatableOwner ↔ w.kind = v.kind := by
  refine ⟨kind_eq_of_metatableOwner_eq, ?_⟩
  intro h
  cases v with
  | table t => cases hv
  | userdata u => cases hv
  | _ => cases w <;> first | rfl | cases h

end Value

namespace KindMetatables

/-- What is set for a kind is read back for that kind, and all others keep theirs. -/
theorem get_set {k : ValueKind} (hk : k.ownsMetatable = false) (m : KindMetatables)
    (mt : Option TableId) (k' : ValueKind) :
    (m.set k mt).1.get k' = if k' = k then mt else m.get k' := by
  cases k with
  | table => cases hk
  | userdata => cases hk
  | _ => cases k' <;> rfl

end KindMetatables

/-- The object whose metatable it is about is in the store; only tables and full userdata
can be missing. -/
def Store.Holds (s : Store) : Value → Prop
  | .table t => (s.table? t).isSome
  | .userdata u => (s.userdata? u).isSome
  | _ => True

namespace Machine

/-- The metatable of a value is set, for all values with the same owner and no others. -/
structure MetatableSet (m : Machine) (v : Value) (mt : Option TableId) (m' : Machine) : Prop where
  metatables : ∀ w, m'.getMetatable? w =
    if w.metatableOwner = v.metatableOwner then mt else m.getMetatable? w
  userValues : ∀ w, m'.getUserValue w = m.getUserValue w
  entries : ∀ t k, (m'.store.table? t).map (·.get k) = (m.store.table? t).map (·.get k)
  rest : m' = { m with
    store := { m.store with tables := m'.store.tables, userdata := m'.store.userdata }
    kindMetatables := m'.kindMetatables }

/-- The user value of a full userdata is set, and nothing else. -/
structure UserValueSet (m : Machine) (target v : Value) (m' : Machine) : Prop where
  userValue : m'.getUserValue target = v
  others : ∀ w, w ≠ target → m'.getUserValue w = m.getUserValue w
  metatables : ∀ w, m'.getMetatable? w = m.getMetatable? w
  rest : m' = { m with store := { m.store with userdata := m'.store.userdata } }

/-- The arguments that a user value can be set with. -/
def TakesUserValue (m : Machine) (target v : Value) : Prop :=
  ∃ u, target = .userdata u ∧ (m.store.userdata? u).isSome ∧ (v = .nil ∨ ∃ t, v = .table t)

variable {m : Machine} {v : Value} {t : TableId} {u : UserdataId} {mt : Option TableId}

/-! ## Metatables -/

theorem getMetatable?_shared (hv : v.kind.ownsMetatable = false) :
    m.getMetatable? v = m.kindMetatables.get v.kind := by
  cases v <;> first | rfl | cases hv

theorem metatableSet_table (ht : (m.store.table? t).isSome) : m.MetatableSet (.table t) mt
    { m with store := m.store.modifyTable t ({ · with metatable := mt }) } where
  metatables w := by
    cases w with
    | table t' =>
      simp only [getMetatable?, Store.table?_modifyTable, Value.metatableOwner,
        MetatableOwner.table.injEq]
      split
      · rename_i heq
        obtain ⟨table, htable⟩ := Option.isSome_iff_exists.mp ht
        rw [heq, htable, Option.map_some, Option.bind_some]
      · rfl
    | _ => rfl
  userValues w := by cases w <;> rfl
  entries t' k := by
    rw [Store.table?_modifyTable]
    split
    · rw [Option.map_map]
      rfl
    · rfl
  rest := rfl

theorem metatableSet_userdata (hu : (m.store.userdata? u).isSome) :
    m.MetatableSet (.userdata u) mt
      { m with store := m.store.modifyUserdata u ({ · with metatable := mt }) } where
  metatables w := by
    cases w with
    | userdata u' =>
      simp only [getMetatable?, Store.userdata?_modifyUserdata, Value.metatableOwner,
        MetatableOwner.userdata.injEq]
      split
      · rename_i heq
        obtain ⟨userdata, huserdata⟩ := Option.isSome_iff_exists.mp hu
        rw [heq, huserdata, Option.map_some, Option.bind_some]
      · rfl
    | _ => rfl
  userValues w := by
    cases w with
    | userdata u' =>
      simp only [getUserValue, Store.userdata?_modifyUserdata]
      split
      · rw [Option.map_map]
        rfl
      · rfl
    | _ => rfl
  entries _ _ := rfl
  rest := rfl

theorem metatableSet_kind (hv : v.kind.ownsMetatable = false) : m.MetatableSet v mt
    (m.setKindMetatable v.kind mt).1 where
  metatables w := by
    simp only [Value.metatableOwner_eq_iff_kind_eq hv]
    cases hw : w.kind.ownsMetatable with
    | false =>
      simp only [getMetatable?_shared hw, setKindMetatable, KindMetatables.get_set hv]
    | true =>
      -- `w` has a metatable of its own, unlike `v`
      have hne : w.kind ≠ v.kind := by
        intro heq
        rw [heq, hv] at hw
        cases hw
      rw [if_neg hne]
      cases w <;> first | rfl | cases hw
  userValues w := by cases w <;> rfl
  entries _ _ := rfl
  rest := rfl

/-- Setting a metatable fails for missing objects only. -/
theorem setMetatable_outcome (m : Machine) (v : Value) (mt : Option TableId) :
    (m.store.Holds v ∧ ∃ m', m.setMetatable v mt = .ok m' ∧ m.MetatableSet v mt m') ∨
      (¬ m.store.Holds v ∧ ∃ text, m.setMetatable v mt = .error (.runtime text)) := by
  have hshared : v.kind.ownsMetatable = false → m.store.Holds v →
      m.setMetatable v mt = .ok (m.setKindMetatable v.kind mt).1 →
      m.store.Holds v ∧ ∃ m', m.setMetatable v mt = .ok m' ∧ m.MetatableSet v mt m' :=
    fun hv hholds h => ⟨hholds, _, h, metatableSet_kind hv⟩
  cases v with
  | table t =>
    by_cases ht : (m.store.table? t).isSome
    · exact .inl ⟨ht, _, if_pos ht, metatableSet_table ht⟩
    · exact .inr ⟨ht, _, if_neg ht⟩
  | userdata u =>
    by_cases hu : (m.store.userdata? u).isSome
    · exact .inl ⟨hu, _, if_pos hu, metatableSet_userdata hu⟩
    · exact .inr ⟨hu, _, if_neg hu⟩
  | _ => exact .inl (hshared rfl trivial rfl)

/-! ## User values -/

theorem userValueSet_userdata (hu : (m.store.userdata? u).isSome) (v : Value) :
    m.UserValueSet (.userdata u) v
      { m with store := m.store.modifyUserdata u ({ · with userValue := v }) } where
  userValue := by
    obtain ⟨userdata, huserdata⟩ := Option.isSome_iff_exists.mp hu
    simp only [getUserValue, Store.userdata?_modifyUserdata, if_true, huserdata, Option.map_some,
      Option.getD_some]
  others w hw := by
    cases w with
    | userdata u' =>
      have hne : u' ≠ u := fun heq => hw (congrArg Value.userdata heq)
      simp only [getUserValue, Store.userdata?_modifyUserdata, if_neg hne]
    | _ => rfl
  metatables w := by
    cases w with
    | userdata u' =>
      simp only [getMetatable?, Store.userdata?_modifyUserdata]
      split
      · rw [Option.bind_map]
        rfl
      · rfl
    | _ => rfl
  rest := rfl

/-- Why a user value is not set. -/
inductive UserValueRefused (m : Machine) : Value → Value → ScriptError → Prop
  | target {target v : Value} (h : ∀ u, target ≠ .userdata u) : UserValueRefused m target v
      (.badArgument 1 LibraryFunction.setUserValue.name (mismatchText "userdata" target))
  | value {u : UserdataId} {v : Value} (hnil : v ≠ .nil) (htable : ∀ t, v ≠ .table t) :
      UserValueRefused m (.userdata u) v
        (.badArgument 2 LibraryFunction.setUserValue.name (mismatchText "table" v))
  | missing {u : UserdataId} {v : Value} (h : ¬ (m.store.userdata? u).isSome) :
      UserValueRefused m (.userdata u) v (.runtime ("invalid userdata #" ++ u.index.repr))

theorem UserValueRefused.not_takes {target : Value} {e : ScriptError}
    (h : m.UserValueRefused target v e) : ¬ m.TakesUserValue target v := by
  rintro ⟨u, rfl, hu, hv⟩
  cases h with
  | target h => exact h u rfl
  | value hnil htable =>
    obtain rfl | ⟨t, rfl⟩ := hv
    · exact hnil rfl
    · exact htable t rfl
  | missing h => exact h hu

theorem setUserValue_outcome (m : Machine) (target v : Value) :
    (m.TakesUserValue target v ∧
      ∃ m', m.setUserValue target v = .ok m' ∧ m.UserValueSet target v m') ∨
      ∃ e, m.setUserValue target v = .error e ∧ m.UserValueRefused target v e := by
  cases target with
  | userdata u =>
    by_cases hv : v.kind = .nil ∨ v.kind = .table
    · have hv' : v = .nil ∨ ∃ t, v = .table t := by
        cases v <;> simp_all [Value.kind]
      by_cases hu : (m.store.userdata? u).isSome
      · refine .inl ⟨⟨u, rfl, hu, hv'⟩, _, ?_, userValueSet_userdata hu v⟩
        simp only [setUserValue, if_pos hv, if_pos hu]
      · refine .inr ⟨_, ?_, .missing hu⟩
        simp only [setUserValue, if_pos hv, if_neg hu]
    · refine .inr ⟨_, ?_, .value ?_ ?_⟩
      · simp only [setUserValue, if_neg hv]
      · rintro rfl
        exact hv (.inl rfl)
      · rintro t rfl
        exact hv (.inr rfl)
  | _ => exact .inr ⟨_, rfl, .target fun _ => Value.noConfusion⟩

end Machine

namespace Exec

open Machine

/-- Setting the metatable of a value succeeds unless it is a table or a full userdata that is
not in the store; then the values with the same owner have that metatable, and all others
have what they had.  Setting a user value succeeds exactly for a full userdata in the store
and a table or nil; then that userdata has it, and no other user value and no metatable is
changed.  Whatever is refused changes nothing. -/
theorem metatables_and_user_values_exact (s : Session) :
    (∀ v mt,
      (s.machine.store.Holds v ∧
        ∃ m', adopt (s.machine.setMetatable v mt) s = .ok () { s with machine := m' } ∧
          s.machine.MetatableSet v mt m') ∨
      (¬ s.machine.store.Holds v ∧
        ∃ text, adopt (s.machine.setMetatable v mt) s = .error (.raised (.runtime text)) s)) ∧
    ∀ target v,
      (s.machine.TakesUserValue target v ∧
        ∃ m', adopt (s.machine.setUserValue target v) s = .ok () { s with machine := m' } ∧
          s.machine.UserValueSet target v m') ∨
      (¬ s.machine.TakesUserValue target v ∧
        ∃ e, adopt (s.machine.setUserValue target v) s = .error (.raised e) s ∧
          s.machine.UserValueRefused target v e) := by
  constructor
  · intro v mt
    obtain ⟨hholds, m', hset, heffect⟩ | ⟨hmissing, text, hset⟩ :=
      s.machine.setMetatable_outcome v mt
    · exact .inl ⟨hholds, m', by rw [hset]; rfl, heffect⟩
    · exact .inr ⟨hmissing, text, by rw [hset]; rfl⟩
  · intro target v
    obtain ⟨htakes, m', hset, heffect⟩ | ⟨e, hset, hrefused⟩ :=
      s.machine.setUserValue_outcome target v
    · exact .inl ⟨htakes, m', by rw [hset]; rfl, heffect⟩
    · exact .inr ⟨hrefused.not_takes, e, by rw [hset]; rfl, hrefused⟩

end Exec

end ScriptDebug
