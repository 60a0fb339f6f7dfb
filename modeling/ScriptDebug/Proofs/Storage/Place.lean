import ScriptDebug.Store.Basic

/-!
# The places of a store

The places that hold values are the registers inside their windows and the closed
cells.  A write to a place is seen there and nowhere else.  Closing a cell makes a place
of it, with the value that it had.

## Implementation notes

What a place holds depends on the cells and the windows alone (`read_congr`), and which
place a cell stands for on the cells alone.
-/

namespace ScriptDebug.Store

variable {s s' : Store} {w : WindowId} {slot : Nat} {c : CellId} {l : Location}

/-- A register inside its window is a place, and so is a closed cell. -/
def HasPlace (s : Store) : Location → Prop
  | .register w slot => slot < s.windowSize w
  | .cell c => s.location? c = some (.cell c)

/-- Every open cell stands for a register inside its window. -/
def WellAliased (s : Store) : Prop :=
  ∀ c w slot, s.location? c = some (.register w slot) → slot < s.windowSize w

/-! ## What a cell stands for -/

theorem location?_eq_register :
    s.location? c = some (.register w slot) ↔ s.cells[c.index]? = some (.aliasing w slot) := by
  rw [location?]
  rcases s.cells[c.index]? with - | ⟨w', slot'⟩ | v <;> simp

/-- A cell stands for no cell but itself. -/
theorem location?_eq_cell {c' : CellId} :
    s.location? c = some (.cell c') ↔ c = c' ∧ ∃ v, s.cells[c.index]? = some (.closed v) := by
  rw [location?]
  rcases s.cells[c.index]? with - | ⟨w', slot'⟩ | v <;> simp

theorem isSome_location? : (s.location? c).isSome ↔ c.index < s.cells.size := by
  rw [location?, Option.isSome_map, isSome_getElem?]

theorem lt_size_of_location? (h : s.location? c = some l) : c.index < s.cells.size :=
  isSome_location?.mp (Option.isSome_of_mem h)

theorem location?_congr (hcells : s'.cells = s.cells) : s'.location? = s.location? := by
  funext c
  rw [location?, location?, hcells]

theorem read_congr (hcells : s'.cells = s.cells) (hwindows : s'.windows = s.windows) :
    s'.read = s.read := by
  funext l
  cases l with
  | register w slot => simp only [read, register, registers, hwindows]
  | cell c => simp only [read, hcells]

/-- Whatever a well-aliased cell stands for is a place. -/
theorem WellAliased.hasPlace (h : s.WellAliased) (hc : s.location? c = some l) : s.HasPlace l := by
  cases l with
  | register w slot => exact h c w slot hc
  | cell c' =>
    obtain ⟨rfl, -⟩ := location?_eq_cell.mp hc
    exact hc

/-! ## Writing to a register -/

theorem register_setRegister (s : Store) (w : WindowId) (slot : Nat) (v : Value) (w' : WindowId)
    (slot' : Nat) :
    (s.setRegister w slot v).register w' slot' =
      if (w' = w ∧ slot' = slot) ∧ slot < s.windowSize w then v else s.register w' slot' := by
  obtain ⟨i⟩ := w
  obtain ⟨j⟩ := w'
  simp only [register, windowSize, registers, setRegister, Array.getD_eq_getD_getElem?,
    Array.getElem?_modify, Handle.mk.injEq]
  by_cases hij : i = j
  · subst hij
    cases s.windows[i]? with
    | none => simp
    | some registers =>
      simp only [if_pos, Option.map_some, Option.getD_some, Array.getElem?_setIfInBounds]
      by_cases hslot : slot = slot'
      · subst hslot
        by_cases hlt : slot < registers.size
        · simp [hlt]
        · simp [hlt]
      · simp [hslot, Ne.symm hslot]
  · simp [hij, Ne.symm hij]

@[simp] theorem windowSize_setRegister (s : Store) (w : WindowId) (slot : Nat) (v : Value)
    (w' : WindowId) : (s.setRegister w slot v).windowSize w' = s.windowSize w' := by
  simp only [windowSize, registers, setRegister, Array.getD_eq_getD_getElem?,
    Array.getElem?_modify]
  split
  · cases s.windows[w'.index]? with
    | none => rfl
    | some registers => simp
  · rfl

/-- A write outside the window is no write. -/
theorem setRegister_outside (h : ¬ slot < s.windowSize w) (v : Value) :
    s.setRegister w slot v = s := by
  have hwindows : s.windows.modify w.index (·.setIfInBounds slot v) = s.windows := by
    apply Array.ext_getElem?
    intro i
    rw [Array.getElem?_modify]
    split
    · rename_i hi
      subst hi
      rw [windowSize, registers, Array.getD_eq_getD_getElem?] at h
      cases hw : s.windows[w.index]? with
      | none => rfl
      | some registers =>
        rw [hw, Option.getD_some] at h
        rw [Option.map_some, Array.setIfInBounds_eq_of_size_le (Nat.le_of_not_lt h)]
    · rfl
  rw [setRegister, hwindows]

/-! ## Writing to a cell -/

theorem getElem?_write_cell (s : Store) (c : CellId) (v : Value) (c' : CellId) :
    (s.write (.cell c) v).cells[c'.index]? =
      if c' = c ∧ c.index < s.cells.size then some (.closed v) else s.cells[c'.index]? := by
  obtain ⟨i⟩ := c
  obtain ⟨j⟩ := c'
  simp only [write, Array.getElem?_setIfInBounds, Handle.mk.injEq]
  by_cases hij : i = j
  · subst hij
    by_cases hlt : i < s.cells.size
    · simp [hlt]
    · simp [hlt]
  · simp [hij, Ne.symm hij]

theorem read_write_cell (h : c.index < s.cells.size) (v : Value) (l : Location) :
    (s.write (.cell c) v).read l = if l = .cell c then v else s.read l := by
  cases l with
  | register w slot => rfl
  | cell c' =>
    simp only [read, getElem?_write_cell, Location.cell.injEq, h, and_true]
    by_cases hc : c' = c
    · simp [hc]
    · simp [hc]

theorem location?_write_cell (h : c.index < s.cells.size) (v : Value) (c' : CellId) :
    (s.write (.cell c) v).location? c' = if c' = c then some (.cell c) else s.location? c' := by
  simp only [location?, getElem?_write_cell, h, and_true]
  by_cases hc : c' = c
  · simp [hc]
  · simp [hc]

@[simp] theorem windowSize_write (s : Store) (l : Location) (v : Value) (w : WindowId) :
    (s.write l v).windowSize w = s.windowSize w := by
  cases l with
  | register w' slot => exact windowSize_setRegister s w' slot v w
  | cell c => rfl

/-! ## Writing to a place -/

/-- A write is seen at its place and nowhere else. -/
theorem read_write (h : s.HasPlace l) (v : Value) (l' : Location) :
    (s.write l v).read l' = if l' = l then v else s.read l' := by
  cases l with
  | register w slot =>
    cases l' with
    | register w' slot' =>
      rw [HasPlace] at h
      simp only [write, read, register_setRegister, h, and_true, Location.register.injEq]
    | cell c =>
      have hne : Location.cell c ≠ .register w slot := by
        intro hc
        cases hc
      rw [if_neg hne]
      rfl
  | cell c => exact read_write_cell (lt_size_of_location? h) v l'

/-- No cell stands for another place after a write. -/
theorem location?_write (h : s.HasPlace l) (v : Value) : (s.write l v).location? = s.location? := by
  cases l with
  | register w slot => rfl
  | cell c =>
    funext c'
    rw [location?_write_cell (lt_size_of_location? h)]
    split
    · rename_i hc
      rw [hc]
      exact h.symm
    · rfl

/-! ## Closing a cell -/

/-- An open cell takes over the value of its register. -/
theorem closeCell?_open (h : s.location? c = some (.register w slot)) :
    s.closeCell? c = some (s.write (.cell c) (s.register w slot)) := by
  rw [closeCell?, cellValue?, h]
  rfl

/-- A closed cell stays as it is. -/
theorem closeCell?_closed (h : s.location? c = some (.cell c)) : s.closeCell? c = some s := by
  obtain ⟨-, v, hv⟩ := location?_eq_cell.mp h
  have hread : s.read (.cell c) = v := by simp only [read, hv]
  have hcells : s.cells.setIfInBounds c.index (.closed v) = s.cells := by
    obtain ⟨hlt, hget⟩ := Array.getElem?_eq_some_iff.mp hv
    rw [Array.setIfInBounds_def, dif_pos hlt, ← hget, Array.set_getElem_self]
  rw [closeCell?, cellValue?, h, Option.map_some, Option.map_some, hread, write, hcells]

theorem closeCell?_absent (h : s.location? c = none) : s.closeCell? c = none := by
  rw [closeCell?, cellValue?, h]
  rfl

/-! ## New cells and windows -/

theorem getElem?_newCell (s : Store) (cell : Cell) (c : CellId) :
    (s.newCell cell).1.cells[c.index]? =
      if c = ⟨s.cells.size⟩ then some cell else s.cells[c.index]? := by
  obtain ⟨i⟩ := c
  simp only [newCell, Array.getElem?_push, Handle.mk.injEq]

/-- An old cell stands for what it stood for. -/
theorem location?_newCell_old (cell : Cell) (h : s.location? c = some l) :
    (s.newCell cell).1.location? c = some l := by
  have hc : c ≠ ⟨s.cells.size⟩ := by
    rintro rfl
    exact Nat.lt_irrefl _ (lt_size_of_location? h)
  rw [location?, getElem?_newCell, if_neg hc]
  exact h

/-- A new cell may be open on a register inside its window. -/
theorem WellAliased.newCell (h : s.WellAliased) {cell : Cell}
    (hcell : ∀ w slot, cell = .aliasing w slot → slot < s.windowSize w) :
    (s.newCell cell).1.WellAliased := by
  intro c w slot hc
  rw [location?_eq_register, getElem?_newCell] at hc
  split at hc
  · exact hcell w slot (Option.some.inj hc)
  · exact h c w slot (location?_eq_register.mpr hc)

/-- A new open cell is no place. -/
theorem read_newCell_aliasing (s : Store) (w : WindowId) (slot : Nat) (l : Location) :
    (s.newCell (.aliasing w slot)).1.read l = s.read l := by
  cases l with
  | register w' slot' => rfl
  | cell c =>
    simp only [read, getElem?_newCell]
    by_cases hc : c = ⟨s.cells.size⟩
    · simp [hc]
    · simp [hc]

/-- A new closed cell is a place with the value of the cell. -/
theorem read_newCell_closed (s : Store) (v : Value) (l : Location) :
    (s.newCell (.closed v)).1.read l = if l = .cell ⟨s.cells.size⟩ then v else s.read l := by
  cases l with
  | register w slot => rfl
  | cell c =>
    simp only [read, getElem?_newCell, Location.cell.injEq]
    by_cases hc : c = ⟨s.cells.size⟩
    · simp [hc]
    · simp [hc]

theorem registers_newWindow (s : Store) (registers : Array Value) (w : WindowId) :
    (s.newWindow registers).1.registers w =
      if w = ⟨s.windows.size⟩ then registers else s.registers w := by
  obtain ⟨i⟩ := w
  simp only [Store.registers, newWindow, Array.getD_eq_getD_getElem?, Array.getElem?_push,
    Handle.mk.injEq]
  split
  · rfl
  · rfl

/-- The windows of a store keep their sizes when one is added. -/
theorem windowSize_newWindow_of_lt (registers : Array Value) (h : slot < s.windowSize w) :
    slot < (s.newWindow registers).1.windowSize w := by
  have hw : w ≠ ⟨s.windows.size⟩ := by
    rintro rfl
    simp [windowSize, Store.registers] at h
  rw [windowSize, registers_newWindow, if_neg hw]
  exact h

theorem register_newWindow (s : Store) (registers : Array Value) (slot : Nat) :
    (s.newWindow registers).1.register ⟨s.windows.size⟩ slot = registers.getD slot .nil := by
  rw [register, registers_newWindow, if_pos rfl]

/-- A new window changes no place but its own registers. -/
theorem read_newWindow_of_ne {registers : Array Value}
    (h : ∀ slot < registers.size, l ≠ .register ⟨s.windows.size⟩ slot) :
    (s.newWindow registers).1.read l = s.read l := by
  cases l with
  | register w slot =>
    rw [read, register, registers_newWindow, read, register]
    split
    · rename_i hw
      subst hw
      have hslot : registers.size ≤ slot := Nat.le_of_not_lt fun hlt => h slot hlt rfl
      simp [Store.registers, hslot]
    · rfl
  | cell c => rfl

end ScriptDebug.Store
