import ScriptDebug.Machine.Notification
import ScriptDebug.Machine.Reflection
import ScriptDebug.Proofs.Storage.LastWrite
import ScriptDebug.Proofs.Storage.Place

/-!
# Access to places

The routes by which values are assigned: register windows, locals of active calls, cells
and upvalues.  An assignment writes to the place that its route leads to
(`assign_eq_write`), and reading by the same way reads that place.  On top of these stand
the steps of a run; what they do to the places is told by their writes (`Effect.read`).

## Implementation notes

A step that has no effect, such as an assignment to a vararg, leaves the machine as it
is and has no writes.
-/

namespace ScriptDebug

/-- A way to assign a value. -/
inductive Route where
  | window (w : WindowId) (slot : Nat)
  | frame (th : ThreadId) (level n : Int)
  | cell (c : CellId)
  | upvalue (f : FunctionId) (n : Int)

/-- A step of a run on the storage. -/
inductive Access where
  | assign (r : Route) (v : Value)
  | closeCell (c : CellId)
  | joinUpvalues (f : FunctionId) (n : Int) (f' : FunctionId) (n' : Int)
  | enter (th : ThreadId) (fr : Frame)
  | instruction (th : ThreadId) (pc : Nat) (varargs : List Value) (top : Nat)
  | leave (th : ThreadId)
  | unwind (th : ThreadId) (depth : Nat)
  | newWindow (registers : Array Value)
  | newCell (c : Cell)
  | newFunction (o : FunctionObject)

namespace Frame

variable {s : Store} {fr : Frame} {n : Int}

/-- The live registers of a call are its locals, counted from 1. -/
theorem register?_live {w : WindowId} {slot : Nat} (hw : fr.window = some w)
    (hslot : slot < fr.liveRegisters s) : fr.register? s (slot + 1) = some (w, slot) := by
  have hn : (1 : Int) ≤ slot + 1 ∧ (slot + 1 : Int) ≤ fr.liveRegisters s := by omega
  rw [register?, if_pos hn, hw]
  rfl

theorem register?_inside {w : WindowId} {slot : Nat} (h : fr.register? s n = some (w, slot)) :
    slot < s.windowSize w := by
  unfold register? at h
  split at h
  · rename_i hn
    obtain ⟨w', hw', hw⟩ := Option.map_eq_some_iff.mp h
    cases hw
    rw [liveRegisters, hw'] at hn
    dsimp only at hn
    omega
  · cases h

end Frame

namespace Machine

variable {m : Machine} {c : CellId} {l : Location}

/-! ## Routes -/

/-- The place that a route leads to, if it leads to any. -/
def place? (m : Machine) : Route → Option Location
  | .window w slot => if slot < m.store.windowSize w then some (.register w slot) else none
  | .frame th level n =>
    ((m.calls th).frame? level).bind fun fr =>
      (fr.register? m.store n).map fun (w, slot) => .register w slot
  | .cell c => m.store.location? c
  | .upvalue f n => (m.upvalueCell? f n).bind m.store.location?

/-- Assign by a route. -/
def assign (m : Machine) (r : Route) (v : Value) : Machine :=
  match r with
  | .window w slot => { m with store := m.store.setRegister w slot v }
  | .frame th level n => ((m.setLocal? th level n v).map (·.2)).getD m
  | .cell c => { m with store := (m.store.setCell? c v).getD m.store }
  | .upvalue f n => ((m.setUpvalue? f n v).map (·.2)).getD m

section Live

variable {th : ThreadId} {level : Int} {fr : Frame} {w : WindowId} {slot : Nat}

theorem place?_frame (hfr : (m.calls th).frame? level = some fr) (hw : fr.window = some w)
    (hslot : slot < fr.liveRegisters m.store) :
    m.place? (.frame th level (slot + 1)) = some (.register w slot) := by
  rw [place?, hfr, Option.bind_some, Frame.register?_live hw hslot]
  rfl

/-- A local of an active call is read from its register. -/
theorem getLocal?_live (hfr : (m.calls th).frame? level = some fr) (hw : fr.window = some w)
    (hslot : slot < fr.liveRegisters m.store) :
    m.getLocal? th level (slot + 1) =
      some (fr.reportedName m.store (slot + 1), m.store.register w slot) := by
  have hn : ¬ (slot + 1 : Int) < 0 := by omega
  rw [getLocal?, hfr, Option.bind_some, Frame.getLocal?, if_neg hn, Frame.register?_live hw hslot]
  rfl

end Live

/-- An upvalue is read from the place that its cell stands for. -/
theorem getUpvalue?_eq_read {f : FunctionId} {n : Int} (hc : m.upvalueCell? f n = some c)
    (hl : m.store.location? c = some l) :
    m.getUpvalue? f n = some (m.upvalueName f n, m.store.read l) := by
  simp only [getUpvalue?, hc, Store.cellValue?, hl, Option.map_some, Option.bind_eq_bind,
    Option.bind_some, Option.pure_def]

theorem place?_window {w : WindowId} {slot : Nat} :
    m.place? (.window w slot) = some l ↔ slot < m.store.windowSize w ∧ l = .register w slot := by
  rw [place?, Option.ite_none_right_eq_some, Option.some.injEq, @eq_comm _ l]

theorem place?_frame_inv {th : ThreadId} {level n : Int}
    (h : m.place? (.frame th level n) = some l) :
    ∃ fr w slot, (m.calls th).frame? level = some fr ∧
      fr.register? m.store n = some (w, slot) ∧ l = .register w slot := by
  obtain ⟨fr, hfr, h⟩ := Option.bind_eq_some_iff.mp h
  obtain ⟨⟨w, slot⟩, hreg, hl⟩ := Option.map_eq_some_iff.mp h
  exact ⟨fr, w, slot, hfr, hreg, hl.symm⟩

/-- Every route assigns to the place that it leads to. -/
theorem assign_eq_write {r : Route} (h : m.place? r = some l) (v : Value) :
    m.assign r v = { m with store := m.store.write l v } := by
  cases r with
  | window w slot =>
    obtain ⟨-, rfl⟩ := place?_window.mp h
    rfl
  | frame th level n =>
    obtain ⟨fr, w, slot, hfr, hreg, rfl⟩ := place?_frame_inv h
    simp only [assign, setLocal?, hfr, Frame.setLocal?, hreg, Option.map_some, Option.bind_eq_bind,
      Option.bind_some, Option.pure_def, Option.getD_some, Store.write]
  | cell c =>
    rw [place?] at h
    rw [assign, Store.setCell?, h]
    rfl
  | upvalue f n =>
    obtain ⟨c, hc, hl⟩ := Option.bind_eq_some_iff.mp h
    simp only [assign, setUpvalue?, hc, Store.setCell?, hl, Option.map_some, Option.bind_eq_bind,
      Option.bind_some, Option.pure_def, Option.getD_some]

/-- An assignment by a route that leads nowhere has no effect. -/
theorem assign_eq_self {r : Route} (h : m.place? r = none) (v : Value) : m.assign r v = m := by
  cases r with
  | window w slot =>
    rw [place?] at h
    split at h
    · cases h
    · rename_i hslot
      rw [assign, Store.setRegister_outside hslot]
  | frame th level n =>
    rw [place?] at h
    rw [assign, setLocal?]
    cases hfr : (m.calls th).frame? level with
    | none => rfl
    | some fr =>
      rw [hfr, Option.bind_some, Option.map_eq_none_iff] at h
      simp only [Option.bind_eq_bind, Option.bind_some, Frame.setLocal?, h, Option.map_none,
        Option.bind_none, Option.getD_none]
  | cell c =>
    rw [place?] at h
    rw [assign, Store.setCell?, h]
    rfl
  | upvalue f n =>
    rw [place?] at h
    rw [assign, setUpvalue?]
    cases hc : m.upvalueCell? f n with
    | none => rfl
    | some c =>
      rw [hc, Option.bind_some] at h
      simp only [Option.bind_eq_bind, Option.bind_some, Store.setCell?, h, Option.map_none,
        Option.bind_none, Option.getD_none]

/-- Where no cell is open outside its window, routes lead to places of the store. -/
theorem hasPlace_of_place? (hm : m.store.WellAliased) {r : Route} (h : m.place? r = some l) :
    m.store.HasPlace l := by
  cases r with
  | window w slot =>
    obtain ⟨hslot, rfl⟩ := place?_window.mp h
    exact hslot
  | frame th level n =>
    obtain ⟨fr, w, slot, -, hreg, rfl⟩ := place?_frame_inv h
    exact Frame.register?_inside hreg
  | cell c => exact hm.hasPlace h
  | upvalue f n =>
    obtain ⟨c, -, hl⟩ := Option.bind_eq_some_iff.mp h
    exact hm.hasPlace hl

/-- An assignment is seen in no place but its own. -/
theorem read_assign_of_ne (hm : m.store.WellAliased) {r : Route} (v : Value)
    (hl : m.place? r ≠ some l) : (m.assign r v).store.read l = m.store.read l := by
  cases hr : m.place? r with
  | none => rw [assign_eq_self hr]
  | some l' =>
    have hne : l ≠ l' := by
      rintro rfl
      exact hl hr
    rw [assign_eq_write hr, Store.read_write (hasPlace_of_place? hm hr), if_neg hne]

/-! ## Steps -/

/-- Take a step. -/
def apply (m : Machine) : Access → Machine
  | .assign r v => m.assign r v
  | .closeCell c => { m with store := (m.store.closeCell? c).getD m.store }
  | .joinUpvalues f n f' n' =>
    match m.joinUpvalues f n f' n' with
    | .ok m' => m'
    | .error _ => m
  | .enter th fr => (m.noteCall th fr).1
  | .instruction th pc varargs top => (m.noteInstruction th pc varargs top).1
  | .leave th => (m.noteReturn th).1
  | .unwind th depth => m.unwindTo th depth
  | .newWindow registers => { m with store := (m.store.newWindow registers).1 }
  | .newCell c => { m with store := (m.store.newCell c).1 }
  | .newFunction o => { m with store := (m.store.newFunction o).1 }

/-- The places that a step gives a value, with the values. -/
def writes (m : Machine) : Access → List (Location × Value)
  | .assign r v => (m.place? r).toList.map fun l => (l, v)
  | .closeCell c =>
    match m.store.location? c with
    | some (.register w slot) => [(.cell c, m.store.register w slot)]
    | _ => []
  | .newWindow registers =>
    (List.range registers.size).map fun slot =>
      (.register ⟨m.store.windows.size⟩ slot, registers.getD slot .nil)
  | .newCell (.closed v) => [(.cell ⟨m.store.cells.size⟩, v)]
  | _ => []

/-- A step may open cells on registers inside their windows only. -/
def Allows (m : Machine) : Access → Prop
  | .newCell (.aliasing w slot) => slot < m.store.windowSize w
  | _ => True

instance (m : Machine) (op : Access) : Decidable (m.Allows op) :=
  match op with
  | .newCell (.aliasing w slot) => inferInstanceAs (Decidable (slot < m.store.windowSize w))
  | .newCell (.closed _) | .newWindow _ | .newFunction _ | .assign .. | .closeCell _
  | .joinUpvalues .. | .enter .. | .instruction .. | .leave _ | .unwind .. => .isTrue trivial

theorem apply_closeCell_open {w : WindowId} {slot : Nat}
    (h : m.store.location? c = some (.register w slot)) :
    m.apply (.closeCell c) =
      { m with store := m.store.write (.cell c) (m.store.register w slot) } := by
  rw [apply, Store.closeCell?_open h]
  rfl

theorem apply_closeCell_closed (h : m.store.location? c = some (.cell c)) :
    m.apply (.closeCell c) = m := by
  rw [apply, Store.closeCell?_closed h]
  rfl

theorem apply_closeCell_absent (h : m.store.location? c = none) : m.apply (.closeCell c) = m := by
  rw [apply, Store.closeCell?_absent h]
  rfl

/-- Closing a cell has an effect only if the cell is open. -/
theorem apply_closeCell_cases (m : Machine) (c : CellId) :
    m.apply (.closeCell c) = m ∨
      ∃ w slot, m.store.location? c = some (.register w slot) ∧
        m.apply (.closeCell c) =
          { m with store := m.store.write (.cell c) (m.store.register w slot) } := by
  cases hc : m.store.location? c with
  | none => exact .inl (apply_closeCell_absent hc)
  | some l =>
    cases l with
    | register w slot => exact .inr ⟨w, slot, rfl, apply_closeCell_open hc⟩
    | cell c' =>
      obtain ⟨rfl, -⟩ := Store.location?_eq_cell.mp hc
      exact .inl (apply_closeCell_closed hc)

theorem store_recordTrace (m : Machine) (th : ThreadId) : (m.recordTrace th).store = m.store := by
  unfold recordTrace
  split
  · split <;> rfl
  · rfl

theorem store_noteInstruction (m : Machine) (th : ThreadId) (pc : Nat) (varargs : List Value)
    (top : Nat) : (m.noteInstruction th pc varargs top).1.store = m.store := by
  unfold noteInstruction
  dsimp only
  split
  · rfl
  · rw [store_recordTrace]
    rfl

theorem joinUpvalues_ok {m' : Machine} {f f' : FunctionId} {n n' : Int}
    (h : m.joinUpvalues f n f' n' = .ok m') :
    ∃ slot c, m' = { m with store := m.store.setUpvalueCell f slot c } := by
  unfold joinUpvalues at h
  split at h
  · cases h
  · cases h
  · split at h
    · cases h
    · cases h
    · cases h
      exact ⟨_, _, rfl⟩

/-- What a step can do to the places: leave cells and windows alone, write to the place
that a route leads to, close an open cell, or create a window or a cell. -/
inductive Effect (m : Machine) : Access → List (Location × Value) → Store → Prop
  | idle {op : Access} {s' : Store} (hcells : s'.cells = m.store.cells)
      (hwindows : s'.windows = m.store.windows) : Effect m op [] s'
  | assign {r : Route} {v : Value} {l : Location} (h : m.place? r = some l) :
      Effect m (.assign r v) [(l, v)] (m.store.write l v)
  | close {c : CellId} {w : WindowId} {slot : Nat}
      (h : m.store.location? c = some (.register w slot)) :
      Effect m (.closeCell c) [(.cell c, m.store.register w slot)]
        (m.store.write (.cell c) (m.store.register w slot))
  | window (registers : Array Value) :
      Effect m (.newWindow registers) (m.writes (.newWindow registers))
        (m.store.newWindow registers).1
  | openCell (w : WindowId) (slot : Nat) :
      Effect m (.newCell (.aliasing w slot)) [] (m.store.newCell (.aliasing w slot)).1
  | closedCell (v : Value) :
      Effect m (.newCell (.closed v)) [(.cell ⟨m.store.cells.size⟩, v)]
        (m.store.newCell (.closed v)).1

theorem apply_effect (m : Machine) (op : Access) :
    m.Effect op (m.writes op) (m.apply op).store := by
  cases op with
  | assign r v =>
    cases hr : m.place? r with
    | none =>
      rw [writes, apply, hr, assign_eq_self hr]
      exact .idle rfl rfl
    | some l =>
      rw [writes, apply, hr, assign_eq_write hr]
      exact .assign hr
  | closeCell c =>
    cases hc : m.store.location? c with
    | none =>
      rw [apply_closeCell_absent hc, writes, hc]
      exact .idle rfl rfl
    | some l =>
      cases l with
      | register w slot =>
        rw [apply_closeCell_open hc, writes, hc]
        exact .close hc
      | cell c' =>
        obtain ⟨rfl, -⟩ := Store.location?_eq_cell.mp hc
        rw [apply_closeCell_closed hc, writes, hc]
        exact .idle rfl rfl
  | joinUpvalues f n f' n' =>
    rw [apply]
    split
    · rename_i m' hm'
      obtain ⟨slot, c, rfl⟩ := joinUpvalues_ok hm'
      exact .idle rfl rfl
    · exact .idle rfl rfl
  | instruction th pc varargs top =>
    rw [apply, store_noteInstruction]
    exact .idle rfl rfl
  | enter th fr => exact .idle rfl rfl
  | leave th => exact .idle rfl rfl
  | unwind th depth => exact .idle rfl rfl
  | newFunction o => exact .idle rfl rfl
  | newWindow registers => exact .window registers
  | newCell cell =>
    cases cell with
    | aliasing w slot => exact .openCell w slot
    | closed v => exact .closedCell v

namespace Effect

variable {op : Access} {ws : List (Location × Value)} {s' : Store}

/-- A step leaves in each place the last of its writes there. -/
theorem read (h : m.Effect op ws s') (hm : m.store.WellAliased) (l : Location) :
    s'.read l = lastWrite m.store.read ws l := by
  cases h with
  | idle hcells hwindows => rw [Store.read_congr hcells hwindows, lastWrite_nil]
  | assign h => rw [Store.read_write (hasPlace_of_place? hm h), lastWrite_singleton]
  | close h =>
    rw [Store.read_write_cell (Store.lt_size_of_location? h), lastWrite_singleton]
  | window registers =>
    let s' := (m.store.newWindow registers).1
    have hwrites : m.writes (.newWindow registers) =
        ((List.range registers.size).map (.register ⟨m.store.windows.size⟩)).map
          fun l => (l, s'.read l) := by
      rw [writes, List.map_map]
      refine List.map_congr_left fun slot _ => ?_
      rw [Function.comp_apply, Store.read, Store.register_newWindow]
    rw [hwrites, lastWrite_map]
    split
    · rfl
    · rename_i hl
      refine Store.read_newWindow_of_ne fun slot hslot hc => hl ?_
      rw [hc]
      exact List.mem_map_of_mem (List.mem_range.mpr hslot)
  | openCell w slot => rw [Store.read_newCell_aliasing, lastWrite_nil]
  | closedCell v => rw [Store.read_newCell_closed, lastWrite_singleton]

/-- No step leaves a cell open outside its window. -/
theorem wellAliased (h : m.Effect op ws s') (hm : m.store.WellAliased) (hop : m.Allows op) :
    s'.WellAliased := by
  cases h with
  | idle hcells hwindows =>
    intro c w slot hc
    rw [Store.location?_congr hcells] at hc
    rw [Store.windowSize, Store.registers, hwindows]
    exact hm c w slot hc
  | assign h =>
    intro c w slot hc
    rw [Store.location?_write (hasPlace_of_place? hm h)] at hc
    rw [Store.windowSize_write]
    exact hm c w slot hc
  | close h =>
    intro c w slot hc
    rw [Store.location?_write_cell (Store.lt_size_of_location? h)] at hc
    split at hc
    · cases hc
    · exact hm c w slot hc
  | window registers =>
    intro c w slot hc
    exact Store.windowSize_newWindow_of_lt registers (hm c w slot hc)
  | openCell w slot =>
    refine hm.newCell fun w' slot' hcell => ?_
    cases hcell
    exact hop
  | closedCell v =>
    refine hm.newCell fun w slot hcell => ?_
    cases hcell

/-- A cell stands for what it stood for unless it is closed. -/
theorem location? (h : m.Effect op ws s') (hm : m.store.WellAliased) (hop : op ≠ .closeCell c)
    (hc : m.store.location? c = some l) : s'.location? c = some l := by
  cases h with
  | idle hcells hwindows => rw [Store.location?_congr hcells, hc]
  | assign h => rw [Store.location?_write (hasPlace_of_place? hm h), hc]
  | @close c' w slot h =>
    have hne : c ≠ c' := by
      rintro rfl
      exact hop rfl
    rw [Store.location?_write_cell (Store.lt_size_of_location? h), if_neg hne, hc]
  | window registers => exact hc
  | openCell w slot => exact Store.location?_newCell_old _ hc
  | closedCell v => exact Store.location?_newCell_old _ hc

end Effect

/-- A cell that is closed stands for itself. -/
theorem location?_apply_closeCell (hc : (m.store.location? c).isSome) :
    (m.apply (.closeCell c)).store.location? c = some (.cell c) := by
  obtain ⟨l, hl⟩ := Option.isSome_iff_exists.mp hc
  cases l with
  | register w slot =>
    rw [apply_closeCell_open hl, Store.location?_write_cell (Store.isSome_location?.mp hc),
      if_pos rfl]
  | cell c' =>
    obtain ⟨rfl, -⟩ := Store.location?_eq_cell.mp hl
    rw [apply_closeCell_closed hl, hl]

/-- Closing a cell is seen in no place but the cell. -/
theorem read_apply_closeCell (hl : l ≠ .cell c) :
    (m.apply (.closeCell c)).store.read l = m.store.read l := by
  obtain heq | ⟨w, slot, hc, heq⟩ := m.apply_closeCell_cases c
  · rw [heq]
  · rw [heq, Store.read_write_cell (Store.lt_size_of_location? hc), if_neg hl]

/-- Closing a cell moves no other cell. -/
theorem location?_apply_closeCell_of_ne {c' : CellId} (hne : c' ≠ c) :
    (m.apply (.closeCell c)).store.location? c' = m.store.location? c' := by
  obtain heq | ⟨w, slot, hc, heq⟩ := m.apply_closeCell_cases c
  · rw [heq]
  · rw [heq, Store.location?_write_cell (Store.lt_size_of_location? hc), if_neg hne]

/-- Closing a cell leaves its value as it is. -/
theorem cellValue?_apply_closeCell (m : Machine) (c : CellId) :
    (m.apply (.closeCell c)).store.cellValue? c = m.store.cellValue? c := by
  obtain heq | ⟨w, slot, hc, heq⟩ := m.apply_closeCell_cases c
  · rw [heq]
  · have hlt := Store.lt_size_of_location? hc
    rw [heq, Store.cellValue?, Store.location?_write_cell hlt, if_pos rfl, Option.map_some,
      Store.read_write_cell hlt, if_pos rfl, Store.cellValue?, hc]
    rfl

/-- Closing a cell twice is the same as once. -/
theorem apply_closeCell_closeCell (m : Machine) (c : CellId) :
    (m.apply (.closeCell c)).apply (.closeCell c) = m.apply (.closeCell c) := by
  cases hc : m.store.location? c with
  | none => rw [apply_closeCell_absent hc, apply_closeCell_absent hc]
  | some l => exact apply_closeCell_closed (location?_apply_closeCell (Option.isSome_of_mem hc))

end Machine

end ScriptDebug
