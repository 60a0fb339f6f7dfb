import Mathlib.Data.List.Forall2
import ScriptDebug.Bytecode.Prototype

/-!
# Interning constants

A constant is added to a pool unless it is there, and is known by its index.  Entries keep
their places, so an index stands for the same constant for good, and two additions give
the same index exactly when they are of the same constant.

## Implementation notes

Which entry is the first of a constant is the same in every pool that begins with a given
one (`IsFirst.of_kept`).  So the answers of a sequence of additions can all be compared in
the pool that the sequence ends with.
-/

namespace ScriptDebug

namespace Constant

/-- The same constant: of one kind and with one content, floats being told apart by their
bits. -/
def Same : Constant → Constant → Prop
  | .nil, .nil => True
  | .boolean b, .boolean c => b = c
  | .integer i, .integer j => i = j
  | .float x, .float y => x.bits = y.bits
  | .string s, .string t => s = t
  | _, _ => False

theorem same_iff_eq {k k' : Constant} : k.Same k' ↔ k = k' := by
  cases k with
  | float x =>
    cases k' with
    | float y =>
      obtain ⟨bits⟩ := x
      obtain ⟨bits'⟩ := y
      simp [Same]
    | _ => simp [Same]
  | _ => cases k' <;> simp [Same]

/-- The comparison that finds entries. -/
theorem same_eq_true_iff {k k' : Constant} : k.same k' = true ↔ k.Same k' := by
  cases k <;> cases k' <;> simp [same, equals, Same]

instance (k k' : Constant) : Decidable (k.Same k') := decidable_of_iff _ same_eq_true_iff

/-- Numeric equality of floats would not do: a NaN does not equal itself, and the two zeros
equal each other. -/
theorem same_equivalence : Equivalence Same where
  refl _ := same_iff_eq.mpr rfl
  symm h := same_iff_eq.mpr (same_iff_eq.mp h).symm
  trans h h' := same_iff_eq.mpr ((same_iff_eq.mp h).trans (same_iff_eq.mp h'))

/-- The two zeros. -/
example : ¬ (float ⟨0⟩).Same (float ⟨0x8000000000000000⟩) ∧
    Binary64.equals ⟨0⟩ ⟨0x8000000000000000⟩ = true := by decide

end Constant

/-! ## Pools -/

namespace ConstantPool

/-- The first entry of a pool that is a constant. -/
def IsFirst (pool : Array Constant) (k : Constant) (i : Nat) : Prop :=
  (∃ c, pool[i]? = some c ∧ c.Same k) ∧ ∀ j < i, ∀ c, pool[j]? = some c → ¬ c.Same k

/-- The entries of a pool keep their places in another one. -/
def Kept (pool pool' : Array Constant) : Prop :=
  ∀ (i : Nat) c, pool[i]? = some c → pool'[i]? = some c

/-- No two entries of a pool are the same constant. -/
def Distinct (pool : Array Constant) : Prop :=
  pool.toList.Pairwise fun c c' => ¬ c.Same c'

/-- What adding a constant does to a pool, and the index that it answers. -/
structure Interned (pool pool' : Array Constant) (k : Constant) (i : Nat) : Prop where
  first : IsFirst pool' k i
  kept : Kept pool pool'
  grows_iff : pool'.size = pool.size + 1 ↔ ∀ c ∈ pool, ¬ c.Same k
  eq_of_found : (∃ c ∈ pool, c.Same k) → pool' = pool
  distinct : Distinct pool → Distinct pool'

namespace Kept

variable {pool pool' pool'' : Array Constant}

theorem refl (pool : Array Constant) : Kept pool pool := fun _ _ h => h

theorem trans (h : Kept pool pool') (h' : Kept pool' pool'') : Kept pool pool'' :=
  fun i c hc => h' i c (h i c hc)

theorem push (pool : Array Constant) (k : Constant) : Kept pool (pool.push k) := by
  intro i c hc
  obtain ⟨hi, rfl⟩ := Array.getElem?_eq_some_iff.mp hc
  exact Array.getElem?_push_lt hi

end Kept

namespace IsFirst

variable {pool pool' : Array Constant} {k k' : Constant} {i i' : Nat}

/-- What comes after the entries of a pool is of no account for those that are in it. -/
theorem of_kept (h : IsFirst pool k i) (hkept : Kept pool pool') : IsFirst pool' k i := by
  obtain ⟨⟨c, hc, hsame⟩, hbefore⟩ := h
  refine ⟨⟨c, hkept i c hc, hsame⟩, ?_⟩
  intro j hj c' hc'
  obtain ⟨hi, -⟩ := Array.getElem?_eq_some_iff.mp hc
  have hget : pool[j]? = some pool[j] := Array.getElem?_eq_getElem (by omega)
  have hsome : some pool[j] = some c' := (hkept j _ hget).symm.trans hc'
  exact hbefore j hj c' (hget.trans hsome)

/-- An index stands for one constant, and a constant has one first index. -/
theorem eq_iff_same (h : IsFirst pool k i) (h' : IsFirst pool k' i') : i = i' ↔ k.Same k' := by
  obtain ⟨⟨c, hc, hsame⟩, hbefore⟩ := h
  obtain ⟨⟨c', hc', hsame'⟩, hbefore'⟩ := h'
  rw [Constant.same_iff_eq] at hsame hsame' ⊢
  subst hsame hsame'
  constructor
  · rintro rfl
    exact Option.some.inj (hc.symm.trans hc')
  · rintro rfl
    rcases Nat.lt_trichotomy i i' with hlt | heq | hgt
    · exact absurd (Constant.same_equivalence.refl c) (hbefore' i hlt c hc)
    · exact heq
    · exact absurd (Constant.same_equivalence.refl c) (hbefore i' hgt c hc')

end IsFirst

theorem Distinct.push {pool : Array Constant} {k : Constant} (h : Distinct pool)
    (hk : ∀ c ∈ pool, ¬ c.Same k) : Distinct (pool.push k) := by
  rw [Distinct, Array.toList_push, List.pairwise_append]
  refine ⟨h, List.pairwise_singleton _ _, ?_⟩
  intro c hc k' hk'
  rw [List.mem_singleton.mp hk']
  exact hk c (Array.mem_def.mpr hc)

/-- An entry that is found is answered, and the pool stays as it is. -/
theorem interned_of_found {pool : Array Constant} {k : Constant} {i : Nat}
    (h : pool.findIdx? (·.same k) = some i) : Interned pool pool k i := by
  obtain ⟨hi, hfound, hbefore⟩ := Array.findIdx?_eq_some_iff_getElem.mp h
  have hsame : pool[i].Same k := Constant.same_eq_true_iff.mp hfound
  refine ⟨⟨⟨pool[i], Array.getElem?_eq_getElem hi, hsame⟩, ?_⟩, .refl pool, ?_, fun _ => rfl,
    id⟩
  · intro j hj c hc hck
    obtain ⟨hjlt, rfl⟩ := Array.getElem?_eq_some_iff.mp hc
    exact hbefore j hj (Constant.same_eq_true_iff.mpr hck)
  · constructor
    · intro hsize
      omega
    · intro hnone
      exact absurd hsame (hnone _ (Array.getElem_mem hi))

/-- A constant that is not found becomes the last entry. -/
theorem interned_of_absent {pool : Array Constant} {k : Constant}
    (h : pool.findIdx? (·.same k) = none) : Interned pool (pool.push k) k pool.size := by
  have hnone : ∀ c ∈ pool, ¬ c.Same k := by
    intro c hc hsame
    have hne := Array.findIdx?_eq_none_iff.mp h c hc
    rw [Constant.same_eq_true_iff.mpr hsame] at hne
    cases hne
  refine ⟨⟨⟨k, Array.getElem?_push_size, Constant.same_equivalence.refl k⟩, ?_⟩, .push pool k,
    ?_, ?_, fun hdistinct => hdistinct.push hnone⟩
  · intro j hj c hc
    rw [Array.getElem?_push_lt hj] at hc
    cases hc
    exact hnone _ (Array.getElem_mem hj)
  · exact ⟨fun _ => hnone, fun _ => Array.size_push k⟩
  · rintro ⟨c, hc, hsame⟩
    exact absurd hsame (hnone c hc)

theorem interned_internConstant (pool : Array Constant) (k : Constant) :
    Interned pool (internConstant pool k).1 k (internConstant pool k).2 := by
  cases h : pool.findIdx? (·.same k) with
  | some i =>
    rw [internConstant_of_found h]
    exact interned_of_found h
  | none =>
    rw [internConstant_of_absent h]
    exact interned_of_absent h

end ConstantPool

/-! ## Additions -/

/-- What is added to the pool of a prototype. -/
inductive Addition where
  | constant (k : Constant)
  | string (s : String)

/-- The constant that an addition is of. -/
def Addition.entry : Addition → Constant
  | constant k => k
  | string s => .string s

namespace Prototype

open ConstantPool

/-- Make an addition: the prototype afterwards and the index. -/
def add (p : Prototype) : Addition → Prototype × Nat
  | .constant k => p.intern k
  | .string s => p.internString s

/-- Make additions one after the other: the prototype after all and their indices. -/
def addAll (p : Prototype) : List Addition → Prototype × List Nat
  | [] => (p, [])
  | a :: adds =>
    let (p, i) := p.add a
    let (p, answers) := p.addAll adds
    (p, i :: answers)

/-- What one addition does: it concerns the pool alone. -/
theorem add_eq (p : Prototype) (a : Addition) : p.add a =
    ({ p with constants := (internConstant p.constants a.entry).1 },
      (internConstant p.constants a.entry).2) := by
  cases a <;> rfl

theorem add_interned (p : Prototype) (a : Addition) :
    Interned p.constants (p.add a).1.constants a.entry (p.add a).2 := by
  rw [add_eq]
  exact interned_internConstant p.constants a.entry

theorem addAll_kept (p : Prototype) (adds : List Addition) :
    Kept p.constants (p.addAll adds).1.constants := by
  induction adds generalizing p with
  | nil => exact .refl _
  | cons a adds ih => exact (p.add_interned a).kept.trans (ih (p.add a).1)

theorem addAll_distinct {p : Prototype} (h : Distinct p.constants) (adds : List Addition) :
    Distinct (p.addAll adds).1.constants := by
  induction adds generalizing p with
  | nil => exact h
  | cons a adds ih => exact ih ((p.add_interned a).distinct h)

/-- Every answer is the first index of its constant, also in the pool after all additions. -/
theorem addAll_first (p : Prototype) (adds : List Addition) :
    List.Forall₂ (fun a i => IsFirst (p.addAll adds).1.constants a.entry i) adds
      (p.addAll adds).2 := by
  induction adds generalizing p with
  | nil => exact .nil
  | cons a adds ih =>
    exact .cons ((p.add_interned a).first.of_kept ((p.add a).1.addAll_kept adds))
      (ih (p.add a).1)

/-- An addition answers the first index of its constant, where a NaN is the same constant as
itself, the two zeros are different ones, and so are an integer and a float; it changes
nothing but the pool, and the pool only by one entry more if the constant was not there.
Along any additions all entries keep their places, each answer stays the first index of its
constant, two answers are the same exactly if the constants are, and a pool without
duplicates stays without. -/
theorem interning_is_stable :
    Equivalence Constant.Same ∧
    (∀ x y, (Constant.float x).Same (.float y) ↔ x.bits = y.bits) ∧
    (∀ i x, ¬ (Constant.integer i).Same (.float x)) ∧
    (∀ (p : Prototype) a,
      Interned p.constants (p.add a).1.constants a.entry (p.add a).2 ∧
        (p.add a).1 = { p with constants := (p.add a).1.constants }) ∧
    ∀ (p : Prototype) adds,
      let (p', answers) := p.addAll adds
      Kept p.constants p'.constants ∧
        List.Forall₂ (fun a i => IsFirst p'.constants a.entry i) adds answers ∧
        (∀ x ∈ adds.zip answers, ∀ y ∈ adds.zip answers,
          x.2 = y.2 ↔ x.1.entry.Same y.1.entry) ∧
        (Distinct p.constants → Distinct p'.constants) := by
  refine ⟨Constant.same_equivalence, fun _ _ => .rfl, fun _ _ => id, ?_, ?_⟩
  · intro p a
    exact ⟨p.add_interned a, by rw [add_eq]⟩
  · intro p adds
    have hfirst := p.addAll_first adds
    refine ⟨p.addAll_kept adds, hfirst, ?_, fun h => addAll_distinct h adds⟩
    rintro ⟨a, i⟩ hx ⟨b, j⟩ hy
    obtain ⟨-, hzip⟩ := List.forall₂_iff_zip.mp hfirst
    have hi : IsFirst _ a.entry i := hzip hx
    exact hi.eq_iff_same (hzip hy)

end Prototype

end ScriptDebug
