import ScriptDebug.Proofs.Storage.Access

/-!
# Values along a run

A run of assignments, closings, joinings, calls, returns and creations leaves in every
place the value that was written there last, by whatever route, and every route finds it
there.  Cells stand for the same places throughout until they are closed.

## Implementation notes

The invariant of a run is that no cell is open outside its window.  A run keeps it if
each step that opens a cell does so inside the window (`AllowsAll`).
-/

namespace ScriptDebug.Machine

variable {m : Machine} {c : CellId} {l : Location}

def run (m : Machine) (ops : List Access) : Machine := ops.foldl apply m

/-- The writes of a run, in order. -/
def runWrites (m : Machine) : List Access → List (Location × Value)
  | [] => []
  | op :: ops => m.writes op ++ (m.apply op).runWrites ops

/-- A run opens cells on registers inside their windows only. -/
def AllowsAll (m : Machine) : List Access → Prop
  | [] => True
  | op :: ops => m.Allows op ∧ (m.apply op).AllowsAll ops

instance decidableAllowsAll (m : Machine) : (ops : List Access) → Decidable (m.AllowsAll ops)
  | [] => .isTrue trivial
  | op :: ops =>
    have := decidableAllowsAll (m.apply op) ops
    inferInstanceAs (Decidable (m.Allows op ∧ (m.apply op).AllowsAll ops))

theorem run_cons (m : Machine) (op : Access) (ops : List Access) :
    m.run (op :: ops) = (m.apply op).run ops := rfl

theorem wellAliased_apply {op : Access} (hm : m.store.WellAliased) (hop : m.Allows op) :
    (m.apply op).store.WellAliased :=
  (m.apply_effect op).wellAliased hm hop

/-- No step of a run leaves a cell open outside its window. -/
theorem wellAliased_run {ops : List Access} (hm : m.store.WellAliased) (hops : m.AllowsAll ops) :
    (m.run ops).store.WellAliased := by
  induction ops generalizing m with
  | nil => exact hm
  | cons op ops ih => exact ih (wellAliased_apply hm hops.1) hops.2

/-- A run leaves in every place the value last written there. -/
theorem read_run {ops : List Access} (hm : m.store.WellAliased) (hops : m.AllowsAll ops) :
    (m.run ops).store.read = lastWrite m.store.read (m.runWrites ops) := by
  induction ops generalizing m with
  | nil => rfl
  | cons op ops ih =>
    have hstep : (m.apply op).store.read = lastWrite m.store.read (m.writes op) :=
      funext ((m.apply_effect op).read hm)
    funext l
    rw [run_cons, ih (wellAliased_apply hm hops.1) hops.2, hstep, runWrites, lastWrite_append]

/-- A cell stands for what it stood for as long as it is not closed. -/
theorem location?_run_of_not_mem {ops : List Access} (hm : m.store.WellAliased)
    (hops : m.AllowsAll ops) (hnot : .closeCell c ∉ ops) (hc : m.store.location? c = some l) :
    (m.run ops).store.location? c = some l := by
  induction ops generalizing m with
  | nil => exact hc
  | cons op ops ih =>
    rw [List.mem_cons, not_or] at hnot
    have hkept := (m.apply_effect op).location? hm (Ne.symm hnot.1) hc
    exact ih (wellAliased_apply hm hops.1) hops.2 hnot.2 hkept

/-- A closed cell stands for itself from then on. -/
theorem location?_run_closed {ops : List Access} (hm : m.store.WellAliased)
    (hops : m.AllowsAll ops) (hc : m.store.location? c = some (.cell c)) :
    (m.run ops).store.location? c = some (.cell c) := by
  induction ops generalizing m with
  | nil => exact hc
  | cons op ops ih =>
    have hkept : (m.apply op).store.location? c = some (.cell c) := by
      by_cases hop : op = .closeCell c
      · rw [hop, apply_closeCell_closed hc, hc]
      · exact (m.apply_effect op).location? hm hop hc
    exact ih (wellAliased_apply hm hops.1) hops.2 hkept

/-- A cell that is closed in a run stands for itself at its end. -/
theorem location?_run_of_mem {ops : List Access} (hm : m.store.WellAliased)
    (hops : m.AllowsAll ops) (hmem : .closeCell c ∈ ops) (hc : (m.store.location? c).isSome) :
    (m.run ops).store.location? c = some (.cell c) := by
  induction ops generalizing m with
  | nil => cases hmem
  | cons op ops ih =>
    have hm' := wellAliased_apply hm hops.1
    by_cases hop : op = .closeCell c
    · subst hop
      rw [run_cons]
      exact location?_run_closed hm' hops.2 (location?_apply_closeCell hc)
    · have hrest := (List.mem_cons.mp hmem).resolve_left (Ne.symm hop)
      obtain ⟨l, hl⟩ := Option.isSome_iff_exists.mp hc
      have hkept := (m.apply_effect op).location? hm hop hl
      exact ih hm' hops.2 hrest (Option.isSome_of_mem hkept)

/-- A place without writes keeps its value. -/
theorem read_run_of_not_mem {ops : List Access} (hm : m.store.WellAliased)
    (hops : m.AllowsAll ops) (hl : ∀ v, (l, v) ∉ m.runWrites ops) :
    (m.run ops).store.read l = m.store.read l := by
  rw [read_run hm hops, lastWrite_of_not_mem hl]

/-! ## Closing -/

/-- What closing a cell does: the cell keeps its value and is a place of its own from then
on, apart from every register. -/
structure ClosedOff (m : Machine) (c : CellId) (m' : Machine) : Prop where
  /-- The cell keeps its value at that moment. -/
  value : m'.store.cellValue? c = m.store.cellValue? c
  /-- Other cells stand for what they stood for. -/
  others : ∀ c' ≠ c, m'.store.location? c' = m.store.location? c'
  /-- No other place is affected. -/
  elsewhere : ∀ l ≠ .cell c, m'.store.read l = m.store.read l
  /-- To close the cell again has no effect. -/
  again : m'.apply (.closeCell c) = m'
  /-- The cell is a place of its own from then on. -/
  own : ∀ ops, m'.AllowsAll ops → (m'.run ops).store.location? c = some (.cell c)
  /-- The cell keeps its value until there is a write to that place. -/
  kept : ∀ ops, m'.AllowsAll ops → (∀ v, (.cell c, v) ∉ m'.runWrites ops) →
    (m'.run ops).store.cellValue? c = m.store.cellValue? c
  /-- An assignment to the cell reaches no register. -/
  reach : ∀ ops v w slot, m'.AllowsAll ops →
    ((m'.run ops).assign (.cell c) v).store.register w slot = (m'.run ops).store.register w slot

theorem closedOff_apply_closeCell (hm : m.store.WellAliased) (hc : (m.store.location? c).isSome) :
    m.ClosedOff c (m.apply (.closeCell c)) := by
  have hm' : (m.apply (.closeCell c)).store.WellAliased := wellAliased_apply hm trivial
  have hclosed := location?_apply_closeCell hc
  refine
    { value := m.cellValue?_apply_closeCell c
      others := fun c' hne => location?_apply_closeCell_of_ne hne
      elsewhere := fun l hl => read_apply_closeCell hl
      again := m.apply_closeCell_closeCell c
      own := fun ops hops => location?_run_closed hm' hops hclosed
      kept := ?_
      reach := ?_ }
  · intro ops hops hwrites
    have hown := location?_run_closed hm' hops hclosed
    rw [← m.cellValue?_apply_closeCell c, Store.cellValue?, Store.cellValue?, hclosed, hown,
      Option.map_some, Option.map_some, read_run_of_not_mem hm' hops hwrites]
  · intro ops v w slot hops
    have hplace : ((m.apply (.closeCell c)).run ops).place? (.cell c) ≠
        some (.register w slot) := by
      rw [place?, location?_run_closed hm' hops hclosed]
      intro hl
      cases hl
    exact read_assign_of_ne (wellAliased_run hm' hops) v hplace

/-! ## The storage of a run -/

/-- Registers, locals and upvalues have one storage.  At the end of a run a register read
through its window, as a local of an active call, and through any cell or upvalue open on it
has the value last written to it by any route, and a closed cell the one last written to the
cell.  A cell stands for the same place until it is closed, and an assignment changes no
place but the one that its route leads to. -/
theorem routes_share_storage (m : Machine) (ops : List Access) (hm : m.store.WellAliased)
    (hops : m.AllowsAll ops) :
    let m' := m.run ops
    let stored := lastWrite m.store.read (m.runWrites ops)
    (∀ w slot, m'.store.register w slot = stored (.register w slot)) ∧
    (∀ th level fr w slot, (m'.calls th).frame? level = some fr → fr.window = some w →
      slot < fr.liveRegisters m'.store →
      m'.place? (.frame th level (slot + 1)) = some (.register w slot) ∧
      m'.getLocal? th level (slot + 1) =
        some (fr.reportedName m'.store (slot + 1), stored (.register w slot))) ∧
    (∀ c l, m'.store.location? c = some l →
      m'.store.HasPlace l ∧ m'.store.cellValue? c = some (stored l) ∧
      ∀ f n, m'.upvalueCell? f n = some c →
        m'.place? (.upvalue f n) = some l ∧
        m'.getUpvalue? f n = some (m'.upvalueName f n, stored l)) ∧
    (∀ r v l, m'.place? r ≠ some l → (m'.assign r v).store.read l = m'.store.read l) ∧
    (∀ c l, m.store.location? c = some l →
      (.closeCell c ∉ ops → m'.store.location? c = some l) ∧
      (.closeCell c ∈ ops → m'.store.location? c = some (.cell c))) ∧
    ∀ c, (m'.store.location? c).isSome → m'.ClosedOff c (m'.apply (.closeCell c)) := by
  intro m' stored
  have hm' : m'.store.WellAliased := wellAliased_run hm hops
  have hread : m'.store.read = stored := read_run hm hops
  have hregister : ∀ w slot, m'.store.register w slot = stored (.register w slot) := by
    intro w slot
    rw [← hread]
    rfl
  refine ⟨hregister, ?_, ?_, ?_, ?_, ?_⟩
  · intro th level fr w slot hfr hw hslot
    constructor
    · exact place?_frame hfr hw hslot
    · rw [getLocal?_live hfr hw hslot, hregister]
  · intro c l hl
    refine ⟨hm'.hasPlace hl, ?_, ?_⟩
    · rw [Store.cellValue?, hl, hread, Option.map_some]
    · intro f n hc
      constructor
      · rw [place?, hc, Option.bind_some, hl]
      · rw [getUpvalue?_eq_read hc hl, hread]
  · intro r v l hl
    exact read_assign_of_ne hm' v hl
  · intro c l hc
    constructor
    · intro hnot
      exact location?_run_of_not_mem hm hops hnot hc
    · intro hmem
      exact location?_run_of_mem hm hops hmem (Option.isSome_of_mem hc)
  · intro c hc
    exact closedOff_apply_closeCell hm' hc

/-- Two cells are opened on the second register of a call, which is then assigned as a
local; one of the cells is closed, and the register is assigned through the other. -/
def twoCells : List Access :=
  let p : Prototype := ⟨none, 0, 0, 0, false, 2, #[], #[], #[], [], #[some "x"]⟩
  [.newWindow #[.nil, .nil], .newCell (.aliasing ⟨0⟩ 1), .newCell (.aliasing ⟨0⟩ 1),
    .newFunction ⟨.script p #[⟨0⟩], .scripted "f" []⟩, .enter mainThread (.script ⟨0⟩ [] ⟨0⟩ 2),
    .assign (.frame mainThread 1 2) (.integer 5), .closeCell ⟨1⟩,
    .assign (.upvalue ⟨0⟩ 1) (.integer 7)]

/-- The register is 7 by every way of reading it, and the closed cell has kept 5. -/
theorem two_cells_share_register :
    let m := (new .default false).run twoCells
    (new .default false).store.WellAliased ∧ (new .default false).AllowsAll twoCells ∧
      m.store.register ⟨0⟩ 1 = .integer 7 ∧
      m.getLocal? mainThread 1 2 = some (temporaryName, .integer 7) ∧
      m.getUpvalue? ⟨0⟩ 1 = some ("x", .integer 7) ∧
      m.store.cellValue? ⟨1⟩ = some (.integer 5) := by
  intro m
  have hm : (new .default false).store.WellAliased := by
    intro c w slot hc
    cases hc
  have hops : (new .default false).AllowsAll twoCells := by decide
  obtain ⟨hwindow, hlocal, hcell, -⟩ := routes_share_storage _ twoCells hm hops
  have hframe : (m.calls mainThread).frame? 1 = some (.script ⟨0⟩ [] ⟨0⟩ 2) := by decide
  have hopen : m.store.location? ⟨0⟩ = some (.register ⟨0⟩ 1) := by decide
  have hclosed : m.store.location? ⟨1⟩ = some (.cell ⟨1⟩) := by decide
  have hupvalue : m.upvalueCell? ⟨0⟩ 1 = some ⟨0⟩ := by decide
  refine ⟨hm, hops, hwindow ⟨0⟩ 1, ?_, ?_, (hcell ⟨1⟩ _ hclosed).2.1⟩
  · exact (hlocal mainThread 1 _ ⟨0⟩ 1 hframe rfl (by decide)).2
  · exact ((hcell ⟨0⟩ _ hopen).2.2 ⟨0⟩ 1 hupvalue).2

end ScriptDebug.Machine
