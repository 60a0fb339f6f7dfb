import ScriptDebug.Proofs.Storage.Locations

/-!
# Upvalues

A script function has a slot for each of its upvalues, and each slot holds a cell.  The
operations on upvalues accept the numbers of these slots and no others.  Joining puts the
cell of one upvalue into the slot of another; no other slot and no value is affected.

## Implementation notes

Functions keep their prototypes and the numbers of their slots along a run
(`KeepsScripts`), so an upvalue keeps its number and its name.  That its cell stays in the
store takes an invariant as well, because a join moves cells between functions
(`UpvaluesAllocated`).
-/

namespace ScriptDebug

namespace Store

variable {s s' s'' : Store} {f : FunctionId} {p : Prototype} {cells : Array CellId} {n : Int}

/-- The number is that of an upvalue of a script function. -/
def HasUpvalue (s : Store) (f : FunctionId) (n : Int) : Prop :=
  ∃ cells, s.upvalueCells? f = some cells ∧ 1 ≤ n ∧ n ≤ cells.size

/-- The upvalues of all functions have cells of the store. -/
def UpvaluesAllocated (s : Store) : Prop :=
  ∀ f cells, s.upvalueCells? f = some cells → ∀ c ∈ cells, (s.location? c).isSome

/-- A later store has the script functions of an earlier one, with as many upvalues. -/
def KeepsScripts (s s' : Store) : Prop :=
  ∀ f p cells, s.callable? f = some (.script p cells) →
    ∃ cells', s'.callable? f = some (.script p cells') ∧ cells'.size = cells.size

theorem upvalueCells?_eq_some :
    s.upvalueCells? f = some cells ↔ ∃ p, s.callable? f = some (.script p cells) := by
  rw [upvalueCells?]
  rcases s.callable? f with - | ⟨p, cells'⟩ | name <;> simp

theorem prototype?_eq_some :
    s.prototype? f = some p ↔ ∃ cells, s.callable? f = some (.script p cells) := by
  rw [prototype?]
  rcases s.callable? f with - | ⟨p', cells⟩ | name <;> simp

/-! ## Changes to the functions -/

theorem callable?_congr (h : s'.functions = s.functions) : s'.callable? = s.callable? := by
  funext f
  rw [callable?, function?, h]
  rfl

theorem callable?_setUpvalueCell (s : Store) (f : FunctionId) (slot : Nat) (c : CellId)
    (g : FunctionId) :
    (s.setUpvalueCell f slot c).callable? g =
      match s.callable? g with
      | some (.script p cells) =>
        some (.script p (if g = f then cells.setIfInBounds slot c else cells))
      | other => other := by
  obtain ⟨i⟩ := f
  obtain ⟨j⟩ := g
  simp only [callable?, function?, setUpvalueCell, Array.getElem?_modify, Handle.mk.injEq,
    @eq_comm _ i j]
  cases s.functions[j]? with
  | none => split <;> rfl
  | some o =>
    obtain ⟨callable, routine⟩ := o
    cases callable with
    | script p cells => split <;> rfl
    | native name => split <;> rfl

theorem upvalueCells?_setUpvalueCell (s : Store) (f : FunctionId) (slot : Nat) (c : CellId)
    (g : FunctionId) :
    (s.setUpvalueCell f slot c).upvalueCells? g =
      (s.upvalueCells? g).map fun cells =>
        if g = f then cells.setIfInBounds slot c else cells := by
  rw [upvalueCells?, callable?_setUpvalueCell, upvalueCells?]
  rcases s.callable? g with - | ⟨p, cells⟩ | name <;> rfl

theorem prototype?_setUpvalueCell (s : Store) (f : FunctionId) (slot : Nat) (c : CellId) :
    (s.setUpvalueCell f slot c).prototype? = s.prototype? := by
  funext g
  rw [prototype?, callable?_setUpvalueCell, prototype?]
  rcases s.callable? g with - | ⟨p, cells⟩ | name <;> rfl

theorem callable?_newFunction (s : Store) (o : FunctionObject) (f : FunctionId) :
    (s.newFunction o).1.callable? f =
      if f = ⟨s.functions.size⟩ then some o.callable else s.callable? f := by
  obtain ⟨i⟩ := f
  simp only [callable?, function?, newFunction, Array.getElem?_push, Handle.mk.injEq]
  split
  · rfl
  · rfl

namespace KeepsScripts

theorem refl (s : Store) : s.KeepsScripts s := fun _ _ cells hf => ⟨cells, hf, rfl⟩

theorem trans (h : s.KeepsScripts s') (h' : s'.KeepsScripts s'') : s.KeepsScripts s'' := by
  intro f p cells hf
  obtain ⟨cells', hf', hsize⟩ := h f p cells hf
  obtain ⟨cells'', hf'', hsize'⟩ := h' f p cells' hf'
  exact ⟨cells'', hf'', hsize'.trans hsize⟩

theorem of_functions (h : s'.functions = s.functions) : s.KeepsScripts s' := by
  intro f p cells hf
  exact ⟨cells, by rw [callable?_congr h, hf], rfl⟩

theorem setUpvalueCell (s : Store) (f : FunctionId) (slot : Nat) (c : CellId) :
    s.KeepsScripts (s.setUpvalueCell f slot c) := by
  intro g p cells hg
  rw [callable?_setUpvalueCell, hg]
  refine ⟨_, rfl, ?_⟩
  split
  · exact Array.size_setIfInBounds
  · rfl

theorem newFunction (s : Store) (o : FunctionObject) : s.KeepsScripts (s.newFunction o).1 := by
  intro f p cells hf
  have hne : f ≠ ⟨s.functions.size⟩ := by
    rintro rfl
    simp [callable?, function?] at hf
  exact ⟨cells, by rw [callable?_newFunction, if_neg hne, hf], rfl⟩

theorem prototype? (h : s.KeepsScripts s') (hf : s.prototype? f = some p) :
    s'.prototype? f = some p := by
  obtain ⟨cells, hf⟩ := prototype?_eq_some.mp hf
  obtain ⟨cells', hf', -⟩ := h f p cells hf
  exact prototype?_eq_some.mpr ⟨cells', hf'⟩

theorem hasUpvalue (h : s.KeepsScripts s') (hn : s.HasUpvalue f n) : s'.HasUpvalue f n := by
  obtain ⟨cells, hcells, hn⟩ := hn
  obtain ⟨p, hf⟩ := upvalueCells?_eq_some.mp hcells
  obtain ⟨cells', hf', hsize⟩ := h f p cells hf
  exact ⟨cells', upvalueCells?_eq_some.mpr ⟨p, hf'⟩, by rwa [hsize]⟩

end KeepsScripts

end Store

namespace Machine

variable {m m' : Machine} {f f' : FunctionId} {n n' : Int} {c : CellId}

/-! ## Numbers of upvalues -/

theorem upvalueSlot?_eq_some {cells : Array CellId} {slot : Nat} :
    upvalueSlot? cells n = some slot ↔ slot < cells.size ∧ n = slot + 1 := by
  rw [upvalueSlot?, Option.ite_none_right_eq_some, Option.some.injEq]
  omega

theorem upvalueSlot?_eq_none {cells : Array CellId} :
    upvalueSlot? cells n = none ↔ ¬ (1 ≤ n ∧ n ≤ cells.size) := by
  rw [upvalueSlot?, ite_eq_right_iff]
  simp

theorem upvalueSlot?_setIfInBounds (cells : Array CellId) (slot : Nat) (c : CellId) (n : Int) :
    upvalueSlot? (cells.setIfInBounds slot c) n = upvalueSlot? cells n := by
  rw [upvalueSlot?, Array.size_setIfInBounds, upvalueSlot?]

theorem upvalueCell?_eq_some :
    m.upvalueCell? f n = some c ↔
      ∃ cells slot, m.store.upvalueCells? f = some cells ∧ n = (slot : Nat) + 1 ∧
        cells[slot]? = some c := by
  simp only [upvalueCell?, Option.bind_eq_bind, Option.bind_eq_some_iff, upvalueSlot?_eq_some]
  constructor
  · rintro ⟨cells, hcells, slot, ⟨-, hn⟩, hc⟩
    exact ⟨cells, slot, hcells, hn, hc⟩
  · rintro ⟨cells, slot, hcells, hn, hc⟩
    obtain ⟨hslot, -⟩ := Array.getElem?_eq_some_iff.mp hc
    exact ⟨cells, hcells, slot, ⟨hslot, hn⟩, hc⟩

theorem isSome_upvalueCell? : (m.upvalueCell? f n).isSome ↔ m.store.HasUpvalue f n := by
  rw [Option.isSome_iff_exists]
  constructor
  · rintro ⟨c, hc⟩
    obtain ⟨cells, slot, hcells, rfl, hslot⟩ := upvalueCell?_eq_some.mp hc
    obtain ⟨hlt, -⟩ := Array.getElem?_eq_some_iff.mp hslot
    exact ⟨cells, hcells, by omega⟩
  · rintro ⟨cells, hcells, hn⟩
    have hslot : n.toNat - 1 < cells.size := by omega
    refine ⟨cells[n.toNat - 1], upvalueCell?_eq_some.mpr ⟨cells, n.toNat - 1, hcells, ?_, ?_⟩⟩
    · omega
    · exact Array.getElem?_eq_getElem hslot

theorem upvalueCell?_eq_none (h : ¬ m.store.HasUpvalue f n) : m.upvalueCell? f n = none := by
  rwa [← isSome_upvalueCell?, Option.not_isSome_iff_eq_none] at h

/-- What is found by way of the cell of an upvalue is found for upvalues only. -/
theorem hasUpvalue_of_bind {α : Type} {k : CellId → Option α}
    (h : ((m.upvalueCell? f n).bind k).isSome) : m.store.HasUpvalue f n := by
  obtain ⟨x, hx⟩ := Option.isSome_iff_exists.mp h
  obtain ⟨c, hc, -⟩ := Option.bind_eq_some_iff.mp hx
  exact isSome_upvalueCell?.mp (Option.isSome_of_mem hc)

theorem isSome_location?_of_upvalueCell? (hm : m.store.UpvaluesAllocated)
    (hc : m.upvalueCell? f n = some c) : (m.store.location? c).isSome := by
  obtain ⟨cells, slot, hcells, -, hslot⟩ := upvalueCell?_eq_some.mp hc
  exact hm f cells hcells c (Array.mem_of_getElem? hslot)

/-- An upvalue whose cell is in the store has a place. -/
theorem location?_of_hasUpvalue (hm : m.store.UpvaluesAllocated) (hn : m.store.HasUpvalue f n) :
    ∃ c l, m.upvalueCell? f n = some c ∧ m.store.location? c = some l := by
  obtain ⟨c, hc⟩ := Option.isSome_iff_exists.mp (isSome_upvalueCell?.mpr hn)
  obtain ⟨l, hl⟩ := Option.isSome_iff_exists.mp (isSome_location?_of_upvalueCell? hm hc)
  exact ⟨c, l, hc, hl⟩

theorem setUpvalue?_eq_write {l : Location} (hc : m.upvalueCell? f n = some c)
    (hl : m.store.location? c = some l) (v : Value) :
    m.setUpvalue? f n v = some (m.upvalueName f n, { m with store := m.store.write l v }) := by
  simp only [setUpvalue?, hc, Store.setCell?, hl, Option.map_some, Option.bind_eq_bind,
    Option.bind_some, Option.pure_def]

theorem setUpvalue?_eq_none (h : ¬ m.store.HasUpvalue f n) (v : Value) :
    m.setUpvalue? f n v = none := by
  rw [setUpvalue?, upvalueCell?_eq_none h]
  rfl

theorem isSome_getUpvalue? (hm : m.store.UpvaluesAllocated) :
    (m.getUpvalue? f n).isSome ↔ m.store.HasUpvalue f n := by
  constructor
  · exact hasUpvalue_of_bind
  · intro hn
    obtain ⟨c, l, hc, hl⟩ := location?_of_hasUpvalue hm hn
    rw [getUpvalue?_eq_read hc hl]
    rfl

theorem isSome_setUpvalue? (hm : m.store.UpvaluesAllocated) (v : Value) :
    (m.setUpvalue? f n v).isSome ↔ m.store.HasUpvalue f n := by
  constructor
  · exact hasUpvalue_of_bind
  · intro hn
    obtain ⟨c, l, hc, hl⟩ := location?_of_hasUpvalue hm hn
    rw [setUpvalue?_eq_write hc hl]
    rfl

/-! ## Joining -/

/-- What is wrong with an argument of a join, by its position: the functions must be script
functions, and the numbers must be those of their upvalues. -/
inductive InvalidArgument (m : Machine) (f : FunctionId) (n : Int) (f' : FunctionId) (n' : Int) :
    Nat → String → Prop
  | target (h : m.store.upvalueCells? f = none) :
      InvalidArgument m f n f' n' 1 "script function expected"
  | targetNumber {cells : Array CellId} (h : m.store.upvalueCells? f = some cells)
      (hn : ¬ (1 ≤ n ∧ n ≤ cells.size)) :
      InvalidArgument m f n f' n' 2 ("invalid upvalue index " ++ n.repr)
  | origin (h : m.store.upvalueCells? f' = none) :
      InvalidArgument m f n f' n' 3 "script function expected"
  | originNumber {cells : Array CellId} (h : m.store.upvalueCells? f' = some cells)
      (hn : ¬ (1 ≤ n' ∧ n' ≤ cells.size)) :
      InvalidArgument m f n f' n' 4 ("invalid upvalue index " ++ n'.repr)

/-- What a join can come to: the cell of the one upvalue is put into the slot of the other, or
an argument is invalid. -/
inductive JoinOutcome (m : Machine) (f : FunctionId) (n : Int) (f' : FunctionId) (n' : Int) :
    Except ScriptError Machine → Prop
  | joined {slot : Nat} {c : CellId} (hf : m.store.HasUpvalue f n) (hn : n = slot + 1)
      (hc : m.upvalueCell? f' n' = some c) :
      JoinOutcome m f n f' n' (.ok { m with store := m.store.setUpvalueCell f slot c })
  | refused {position : Nat} {complaint : String}
      (h : m.InvalidArgument f n f' n' position complaint) :
      JoinOutcome m f n f' n'
        (.error (.badArgument position LibraryFunction.upvalueJoin.name complaint))

theorem joinUpvalues_outcome (m : Machine) (f : FunctionId) (n : Int) (f' : FunctionId)
    (n' : Int) : m.JoinOutcome f n f' n' (m.joinUpvalues f n f' n') := by
  unfold joinUpvalues
  cases hf : m.store.upvalueCells? f with
  | none => exact .refused (.target hf)
  | some cells =>
    cases hf' : m.store.upvalueCells? f' with
    | none => exact .refused (.origin hf')
    | some cells' =>
      dsimp only
      cases hslot : upvalueSlot? cells n with
      | none => exact .refused (.targetNumber hf (upvalueSlot?_eq_none.mp hslot))
      | some slot =>
        cases hc : m.upvalueCell? f' n' with
        | none =>
          refine .refused (.originNumber hf' fun hn' => ?_)
          have hsome := isSome_upvalueCell?.mpr ⟨cells', hf', hn'⟩
          rw [hc] at hsome
          cases hsome
        | some c =>
          obtain ⟨hlt, rfl⟩ := upvalueSlot?_eq_some.mp hslot
          exact .joined ⟨cells, hf, by omega⟩ rfl hc

/-- An invalid argument rules out that both upvalues are there. -/
theorem InvalidArgument.not_hasUpvalue {position : Nat} {complaint : String}
    (h : m.InvalidArgument f n f' n' position complaint) :
    ¬ (m.store.HasUpvalue f n ∧ m.store.HasUpvalue f' n') := by
  rintro ⟨⟨cells, hcells, hn⟩, cells', hcells', hn'⟩
  cases h with
  | target h =>
    rw [hcells] at h
    cases h
  | targetNumber h hnot =>
    rw [hcells] at h
    cases h
    exact hnot hn
  | origin h =>
    rw [hcells'] at h
    cases h
  | originNumber h hnot =>
    rw [hcells'] at h
    cases h
    exact hnot hn'

/-- Upvalues can be joined if and only if both are there. -/
theorem exists_joinUpvalues_iff :
    (∃ m', m.joinUpvalues f n f' n' = .ok m') ↔
      m.store.HasUpvalue f n ∧ m.store.HasUpvalue f' n' := by
  have houtcome := m.joinUpvalues_outcome f n f' n'
  generalize m.joinUpvalues f n f' n' = outcome at houtcome ⊢
  cases houtcome with
  | joined hf hn hc => exact iff_of_true ⟨_, rfl⟩ ⟨hf, isSome_upvalueCell?.mp (hc ▸ rfl)⟩
  | refused h =>
    refine iff_of_false ?_ h.not_hasUpvalue
    rintro ⟨m', h⟩
    cases h

theorem upvalueCell?_setUpvalueCell {slot : Nat} (hf : m.store.HasUpvalue f (slot + 1))
    (c : CellId) (g : FunctionId) (k : Int) :
    { m with store := m.store.setUpvalueCell f slot c }.upvalueCell? g k =
      if g = f ∧ k = slot + 1 then some c else m.upvalueCell? g k := by
  obtain ⟨cells, hcells, hn⟩ := hf
  by_cases hg : g = f
  · subst hg
    simp only [upvalueCell?, Store.upvalueCells?_setUpvalueCell, hcells, Option.map_some,
      if_true, Option.bind_eq_bind, Option.bind_some, upvalueSlot?_setIfInBounds, true_and]
    cases hk : upvalueSlot? cells k with
    | none =>
      have hne : k ≠ slot + 1 := by
        rintro rfl
        exact upvalueSlot?_eq_none.mp hk hn
      rw [if_neg hne]
      rfl
    | some j =>
      obtain ⟨hj, rfl⟩ := upvalueSlot?_eq_some.mp hk
      simp only [Option.bind_some, Array.getElem?_setIfInBounds]
      by_cases hslot : slot = j
      · subst hslot
        simp [hj]
      · have hne : (j : Int) + 1 ≠ slot + 1 := by omega
        rw [if_neg hslot, if_neg hne]
  · simp only [upvalueCell?, Store.upvalueCells?_setUpvalueCell, hg, if_false, false_and,
      Option.map_id_fun', id_eq]

/-- What joining upvalue `n` of `f` to upvalue `n'` of `f'` does. -/
structure Joined (m : Machine) (f : FunctionId) (n : Int) (f' : FunctionId) (n' : Int)
    (m' : Machine) : Prop where
  /-- The upvalue has the cell that the other had. -/
  cell : m'.upvalueCell? f n = m.upvalueCell? f' n'
  /-- All other upvalues keep their cells. -/
  others : ∀ g k, (g, k) ≠ (f, n) → m'.upvalueCell? g k = m.upvalueCell? g k
  /-- Upvalues keep their names. -/
  names : m'.upvalueName = m.upvalueName
  /-- Cells stand for what they stood for, with the values that they had. -/
  locations : m'.store.location? = m.store.location?
  values : m'.store.cellValue? = m.store.cellValue?
  /-- Other functions and everything that is not a function stay as they are. -/
  functions : ∀ g ≠ f, m'.store.function? g = m.store.function? g
  rest : m' = { m with store := { m.store with functions := m'.store.functions } }

theorem joined_of_joinUpvalues (h : m.joinUpvalues f n f' n' = .ok m') :
    m.Joined f n f' n' m' := by
  have houtcome := m.joinUpvalues_outcome f n f' n'
  rw [h] at houtcome
  cases houtcome with
  | @joined slot c hf hn hc =>
    subst hn
    refine
      { cell := ?_
        others := ?_
        names := ?_
        locations := rfl
        values := rfl
        functions := ?_
        rest := rfl }
    · rw [upvalueCell?_setUpvalueCell hf, if_pos ⟨rfl, rfl⟩, hc]
    · intro g k hne
      rw [upvalueCell?_setUpvalueCell hf, if_neg]
      rintro ⟨rfl, rfl⟩
      exact hne rfl
    · funext g k
      rw [upvalueName, Store.prototype?_setUpvalueCell, upvalueName]
    · intro g hne
      have hindex : f.index ≠ g.index := by
        rintro heq
        exact hne (congrArg Handle.mk heq.symm)
      simp only [Store.function?, Store.setUpvalueCell, Array.getElem?_modify, if_neg hindex]

/-- A refused join names an argument that is invalid, and has no effect. -/
theorem refused_of_joinUpvalues {e : ScriptError} (h : m.joinUpvalues f n f' n' = .error e) :
    (∃ position complaint,
      e = .badArgument position LibraryFunction.upvalueJoin.name complaint ∧
        m.InvalidArgument f n f' n' position complaint) ∧
      m.apply (.joinUpvalues f n f' n') = m := by
  have houtcome := m.joinUpvalues_outcome f n f' n'
  constructor
  · rw [h] at houtcome
    cases houtcome with
    | @refused position complaint hinvalid => exact ⟨position, complaint, rfl, hinvalid⟩
  · rw [apply, h]

/-! ## Runs -/

/-- A step may create functions with cells of the store only. -/
def Captures (m : Machine) : Access → Prop
  | .newFunction ⟨.script _ cells, _⟩ => ∀ c ∈ cells, (m.store.location? c).isSome
  | _ => True

instance (m : Machine) (op : Access) : Decidable (m.Captures op) :=
  match op with
  | .newFunction ⟨.script _ cells, _⟩ =>
    inferInstanceAs (Decidable (∀ c ∈ cells, (m.store.location? c).isSome))
  | .newFunction ⟨.native _, _⟩ | .newWindow _ | .newCell _ | .assign .. | .closeCell _
  | .joinUpvalues .. | .enter .. | .instruction .. | .leave _ | .unwind .. => .isTrue trivial

/-- A run creates functions with cells of the store only. -/
def CapturesAll (m : Machine) : List Access → Prop
  | [] => True
  | op :: ops => m.Captures op ∧ (m.apply op).CapturesAll ops

instance decidableCapturesAll (m : Machine) :
    (ops : List Access) → Decidable (m.CapturesAll ops)
  | [] => .isTrue trivial
  | op :: ops =>
    have := decidableCapturesAll (m.apply op) ops
    inferInstanceAs (Decidable (m.Captures op ∧ (m.apply op).CapturesAll ops))

/-- What a step can do to the functions: leave them as they are, give an upvalue the cell of
another, or create a function. -/
inductive FunctionEffect (m : Machine) : Access → Store → Prop
  | idle {op : Access} {s' : Store} (h : s'.functions = m.store.functions) :
      FunctionEffect m op s'
  | join {f f' : FunctionId} {n n' : Int} {slot : Nat} {c : CellId}
      (hc : m.upvalueCell? f' n' = some c) :
      FunctionEffect m (.joinUpvalues f n f' n') (m.store.setUpvalueCell f slot c)
  | create (o : FunctionObject) : FunctionEffect m (.newFunction o) (m.store.newFunction o).1

theorem apply_functionEffect (m : Machine) (op : Access) :
    m.FunctionEffect op (m.apply op).store := by
  cases op with
  | assign r v =>
    refine .idle ?_
    cases hr : m.place? r with
    | none => rw [apply, assign_eq_self hr]
    | some l =>
      rw [apply, assign_eq_write hr]
      cases l <;> rfl
  | closeCell c =>
    refine .idle ?_
    obtain heq | ⟨w, slot, -, heq⟩ := m.apply_closeCell_cases c
    · rw [heq]
    · rw [heq]
      rfl
  | joinUpvalues f n f' n' =>
    have houtcome := m.joinUpvalues_outcome f n f' n'
    rw [apply]
    generalize m.joinUpvalues f n f' n' = outcome at houtcome ⊢
    cases houtcome with
    | joined hf hn hc => exact .join hc
    | refused h => exact .idle rfl
  | instruction th pc varargs top =>
    rw [apply, store_noteInstruction]
    exact .idle rfl
  | newFunction o => exact .create o
  | enter th fr => exact .idle rfl
  | leave th => exact .idle rfl
  | unwind th depth => exact .idle rfl
  | newWindow registers => exact .idle rfl
  | newCell cell => exact .idle rfl

theorem keepsScripts_apply (m : Machine) (op : Access) :
    m.store.KeepsScripts (m.apply op).store := by
  have heffect := m.apply_functionEffect op
  generalize (m.apply op).store = s' at heffect ⊢
  cases heffect with
  | idle h => exact .of_functions h
  | join hc => exact .setUpvalueCell _ _ _ _
  | create o => exact .newFunction _ o

theorem keepsScripts_run (m : Machine) (ops : List Access) :
    m.store.KeepsScripts (m.run ops).store := by
  induction ops generalizing m with
  | nil => exact .refl _
  | cons op ops ih => exact (m.keepsScripts_apply op).trans (ih (m.apply op))

theorem size_cells_le_apply (m : Machine) (op : Access) :
    m.store.cells.size ≤ (m.apply op).store.cells.size := by
  have heffect := m.apply_effect op
  generalize (m.apply op).store = s', m.writes op = ws at heffect ⊢
  cases heffect with
  | idle hcells hwindows => exact Nat.le_of_eq (congrArg Array.size hcells.symm)
  | @assign r v l h =>
    cases l with
    | register w slot => exact Nat.le_refl _
    | cell c => exact Nat.le_of_eq Array.size_setIfInBounds.symm
  | close h => exact Nat.le_of_eq Array.size_setIfInBounds.symm
  | window registers => exact Nat.le_refl _
  | openCell w slot => exact Nat.le_of_lt (by simp [Store.newCell])
  | closedCell v => exact Nat.le_of_lt (by simp [Store.newCell])

/-- A step keeps the cells of all upvalues in the store. -/
theorem upvaluesAllocated_apply {op : Access} (hm : m.store.UpvaluesAllocated)
    (hop : m.Captures op) : (m.apply op).store.UpvaluesAllocated := by
  have hkept : ∀ c, (m.store.location? c).isSome → ((m.apply op).store.location? c).isSome := by
    intro c hc
    rw [Store.isSome_location?] at hc ⊢
    exact Nat.lt_of_lt_of_le hc (m.size_cells_le_apply op)
  have heffect := m.apply_functionEffect op
  generalize (m.apply op).store = s' at heffect hkept ⊢
  intro g cells hg c hc
  apply hkept
  cases heffect with
  | idle h =>
    rw [Store.upvalueCells?, Store.callable?_congr h] at hg
    exact hm g cells hg c hc
  | @join f f' n n' slot c' hc' =>
    rw [Store.upvalueCells?_setUpvalueCell] at hg
    obtain ⟨old, hold, rfl⟩ := Option.map_eq_some_iff.mp hg
    -- the new cell is that of an upvalue as well
    have hcell : c ∈ old ∨ c = c' := by
      split at hc
      · exact Array.mem_or_eq_of_mem_setIfInBounds hc
      · exact .inl hc
    obtain hmem | rfl := hcell
    · exact hm g old hold c hmem
    · exact isSome_location?_of_upvalueCell? hm hc'
  | create o =>
    obtain ⟨p, hp⟩ := Store.upvalueCells?_eq_some.mp hg
    rw [Store.callable?_newFunction] at hp
    split at hp
    · obtain ⟨callable, routine⟩ := o
      cases hp
      exact hop c hc
    · exact hm g cells (Store.upvalueCells?_eq_some.mpr ⟨p, hp⟩) c hc

theorem upvaluesAllocated_run {ops : List Access} (hm : m.store.UpvaluesAllocated)
    (hops : m.CapturesAll ops) : (m.run ops).store.UpvaluesAllocated := by
  induction ops generalizing m with
  | nil => exact hm
  | cons op ops ih => exact ih (upvaluesAllocated_apply hm hops.1) hops.2

/-! ## Agreement -/

theorem upvalueName_of_prototype? {p : Prototype} (hp : m.store.prototype? f = some p) (n : Int) :
    m.upvalueName f n = (p.upvalueName? (n.toNat - 1)).getD anonymousUpvalue := by
  rw [upvalueName, hp, Option.bind_some]

/-- An upvalue is reported under its name whether it is read or assigned. -/
theorem reported_name (hm : m.store.UpvaluesAllocated) (hn : m.store.HasUpvalue f n) :
    (m.getUpvalue? f n).map (·.1) = some (m.upvalueName f n) ∧
      ∀ v, (m.setUpvalue? f n v).map (·.1) = some (m.upvalueName f n) := by
  obtain ⟨c, l, hc, hl⟩ := location?_of_hasUpvalue hm hn
  constructor
  · rw [getUpvalue?_eq_read hc hl, Option.map_some]
  · intro v
    rw [setUpvalue?_eq_write hc hl, Option.map_some]

/-- The operations on upvalues accept the same numbers, those of the upvalues of script
functions.  They report the same name, which the prototype of the function gives and which
no run changes.  A join gives one upvalue the cell of another and has no other effect.  If a
join is refused, an argument is invalid, and the error names it; a refused join has no
effect, and neither has an assignment to an upvalue that is not there. -/
theorem upvalue_operations_agree (m : Machine) (hm : m.store.UpvaluesAllocated) :
    (∀ f n v,
      ((m.getUpvalue? f n).isSome ↔ m.store.HasUpvalue f n) ∧
      ((m.setUpvalue? f n v).isSome ↔ m.store.HasUpvalue f n) ∧
      ((m.upvalueCell? f n).isSome ↔ m.store.HasUpvalue f n)) ∧
    (∀ f n f' n', (∃ m', m.joinUpvalues f n f' n' = .ok m') ↔
      m.store.HasUpvalue f n ∧ m.store.HasUpvalue f' n') ∧
    (∀ ops f p n, m.CapturesAll ops → m.store.prototype? f = some p →
      m.store.HasUpvalue f n →
      let m' := m.run ops
      let name := (p.upvalueName? (n.toNat - 1)).getD anonymousUpvalue
      (m'.getUpvalue? f n).map (·.1) = some name ∧
        ∀ v, (m'.setUpvalue? f n v).map (·.1) = some name) ∧
    (∀ f n f' n' m', m.joinUpvalues f n f' n' = .ok m' → m.Joined f n f' n' m') ∧
    (∀ f n f' n' e, m.joinUpvalues f n f' n' = .error e →
      (∃ position complaint,
        e = .badArgument position LibraryFunction.upvalueJoin.name complaint ∧
          m.InvalidArgument f n f' n' position complaint) ∧
        m.apply (.joinUpvalues f n f' n') = m) ∧
    ∀ f n v, ¬ m.store.HasUpvalue f n →
      m.setUpvalue? f n v = none ∧ m.assign (.upvalue f n) v = m := by
  refine ⟨?_, ?_, ?_, ?_, ?_, ?_⟩
  · intro f n v
    exact ⟨isSome_getUpvalue? hm, isSome_setUpvalue? hm v, isSome_upvalueCell?⟩
  · intro f n f' n'
    exact exists_joinUpvalues_iff
  · intro ops f p n hops hp hn m' name
    have hkept : m.store.KeepsScripts m'.store := m.keepsScripts_run ops
    have hname : m'.upvalueName f n = name := upvalueName_of_prototype? (hkept.prototype? hp) n
    have hreported := reported_name (upvaluesAllocated_run hm hops) (hkept.hasUpvalue hn)
    rwa [hname] at hreported
  · intro f n f' n' m' h
    exact joined_of_joinUpvalues h
  · intro f n f' n' e h
    exact refused_of_joinUpvalues h
  · intro f n v hn
    have hset := setUpvalue?_eq_none hn v
    constructor
    · exact hset
    · rw [assign, hset, Option.map_none, Option.getD_none]

/-- A function with two upvalues, one of them nameless, and a function that shares the first. -/
def twoFunctions : List Access :=
  let p : Prototype := ⟨none, 0, 0, 0, false, 2, #[], #[], #[], [], #[some "x", none]⟩
  let p' : Prototype := ⟨none, 0, 0, 0, false, 2, #[], #[], #[], [], #[some "y"]⟩
  [.newCell (.closed (.integer 1)), .newCell (.closed (.integer 2)),
    .newFunction ⟨.script p #[⟨0⟩, ⟨1⟩], .scripted "f" []⟩,
    .newFunction ⟨.script p' #[⟨0⟩], .scripted "g" []⟩]

/-- After the join both upvalues of the first function have the shared cell, and the cell
that the second one had keeps its value.  All upvalues have the names that they had. -/
theorem second_upvalue_joins_first :
    let m := (new .default false).run twoFunctions
    m.store.UpvaluesAllocated ∧
      ∃ m', m.joinUpvalues ⟨0⟩ 2 ⟨1⟩ 1 = .ok m' ∧
        m'.upvalueCell? ⟨0⟩ 2 = some ⟨0⟩ ∧ m'.upvalueCell? ⟨0⟩ 1 = some ⟨0⟩ ∧
        m'.upvalueName ⟨0⟩ 2 = anonymousUpvalue ∧ m'.upvalueName ⟨0⟩ 1 = "x" ∧
        m'.upvalueName ⟨1⟩ 1 = "y" ∧
        m'.store.cellValue? ⟨1⟩ = some (.integer 2) := by
  intro m
  have hempty : (new .default false).store.UpvaluesAllocated := by
    intro f cells hcells
    cases hcells
  have hm : m.store.UpvaluesAllocated := upvaluesAllocated_run hempty (by decide)
  obtain ⟨hnumbers, hjoins, -, hjoined, -⟩ := upvalue_operations_agree m hm
  have hn : m.store.HasUpvalue ⟨0⟩ 2 := (hnumbers ⟨0⟩ 2 .nil).2.2.mp (by decide)
  have hn' : m.store.HasUpvalue ⟨1⟩ 1 := (hnumbers ⟨1⟩ 1 .nil).2.2.mp (by decide)
  obtain ⟨m', hm'⟩ := (hjoins ⟨0⟩ 2 ⟨1⟩ 1).mpr ⟨hn, hn'⟩
  have hjoined := hjoined ⟨0⟩ 2 ⟨1⟩ 1 m' hm'
  refine ⟨hm, m', hm', ?_, ?_, ?_, ?_, ?_, ?_⟩
  · exact hjoined.cell.trans (by decide)
  · exact (hjoined.others ⟨0⟩ 1 (by decide)).trans (by decide)
  · rw [hjoined.names]
    decide
  · rw [hjoined.names]
    decide
  · rw [hjoined.names]
    decide
  · rw [hjoined.values]
    decide

end Machine

end ScriptDebug
