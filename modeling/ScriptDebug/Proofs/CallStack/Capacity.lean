import Mathlib.Order.Bounds.Basic
import Mathlib.Order.Monotone.Basic
import ScriptDebug.Proofs.CallStack.Refinement

/-!
# The capacity of a call stack

Slots are added only for a call that finds every slot taken, and always to the next size
of a fixed schedule.  So the capacity tells how many calls there ever were at once, and
nothing else of the past of a stack.

## Implementation notes

A single call never needs more than the next size, because the depth grows by one and the
sizes by at least one (`apply_capacity_cases`).  Along a run the capacity therefore stays
the first size of the schedule that holds the peak (`Fits`).
-/

namespace ScriptDebug

namespace CallStack

/-! ## The schedule -/

/-- The sizes that the array of slots takes, one after the other. -/
def scheduledCapacity : Nat → Nat
  | 0 => 0
  | 1 => 4
  | n + 2 => 3 * scheduledCapacity (n + 1) / 2

theorem four_le_scheduledCapacity (n : Nat) : 4 ≤ scheduledCapacity (n + 1) := by
  induction n with
  | zero => exact Nat.le_refl 4
  | succ n ih =>
    rw [scheduledCapacity]
    omega

/-- A full array grows to the next size. -/
theorem grownCapacity_scheduledCapacity (n : Nat) :
    grownCapacity (scheduledCapacity n) = scheduledCapacity (n + 1) := by
  cases n with
  | zero => rfl
  | succ n =>
    have hfour := four_le_scheduledCapacity n
    rw [scheduledCapacity, grownCapacity, minFrameSlots]
    omega

example : (List.range 6).map scheduledCapacity = [0, 4, 6, 9, 13, 19] := by decide

theorem strictMono_scheduledCapacity : StrictMono scheduledCapacity := by
  apply strictMono_nat_of_lt_succ
  intro n
  rw [← grownCapacity_scheduledCapacity]
  exact lt_grownCapacity _

theorem half_more_le_grownCapacity (c : Nat) : c + c / 2 ≤ grownCapacity c := by
  rw [grownCapacity]
  omega

/-! ## The peak -/

/-- The greatest depth of a stack before, during and after a sequence of operations. -/
def peakDepth (cs : CallStack) : List Operation → Nat
  | [] => cs.depth
  | op :: ops => max cs.depth ((cs.apply op).peakDepth ops)

theorem depth_le_peakDepth (cs : CallStack) (ops : List Operation) :
    cs.depth ≤ cs.peakDepth ops := by
  cases ops with
  | nil => exact Nat.le_refl _
  | cons op ops => exact Nat.le_max_left _ _

/-- A peak over two runs is reached in one of them. -/
theorem peakDepth_append (cs : CallStack) (ops more : List Operation) :
    cs.peakDepth (ops ++ more) = max (cs.peakDepth ops) ((cs.run ops).peakDepth more) := by
  induction ops generalizing cs with
  | nil => exact (Nat.max_eq_right (cs.depth_le_peakDepth more)).symm
  | cons op ops ih =>
    rw [List.cons_append, peakDepth, ih, peakDepth, Nat.max_assoc]
    rfl

/-- The peak is the greatest of the depths that the operations lead to. -/
theorem isGreatest_peakDepth (cs : CallStack) (ops : List Operation) :
    IsGreatest {d | ∃ front, front <+: ops ∧ (cs.run front).depth = d} (cs.peakDepth ops) := by
  constructor
  · induction ops generalizing cs with
    | nil => exact ⟨[], List.prefix_rfl, rfl⟩
    | cons op ops ih =>
      obtain ⟨front, hfront, hdepth⟩ := ih (cs.apply op)
      rcases Nat.le_total ((cs.apply op).peakDepth ops) cs.depth with hle | hle
      · exact ⟨[], List.nil_prefix, (Nat.max_eq_left hle).symm⟩
      · refine ⟨op :: front, (List.prefix_cons_inj op).mpr hfront, ?_⟩
        exact hdepth.trans (Nat.max_eq_right hle).symm
  · rintro d ⟨front, ⟨rest, rfl⟩, rfl⟩
    rw [peakDepth_append]
    exact Nat.le_trans ((cs.run front).depth_le_peakDepth rest) (Nat.le_max_right _ _)

/-! ## Growth -/

/-- An operation keeps the capacity, or it is a call that finds every slot taken. -/
theorem apply_capacity_cases {cs : CallStack} {l : List Frame} (h : cs.Represents l)
    (op : Operation) :
    ((cs.apply op).capacity = cs.capacity ∧ (cs.apply op).depth ≤ cs.capacity) ∨
      (cs.depth = cs.capacity ∧ (cs.apply op).depth = cs.depth + 1 ∧
        (cs.apply op).capacity = grownCapacity cs.capacity) := by
  have hle := h.depth_le_capacity
  have hpush : ∀ fr,
      ((cs.push fr).capacity = cs.capacity ∧ (cs.push fr).depth ≤ cs.capacity) ∨
        (cs.depth = cs.capacity ∧ (cs.push fr).depth = cs.depth + 1 ∧
          (cs.push fr).capacity = grownCapacity cs.capacity) := by
    intro fr
    rw [capacity_push, push_depth]
    split
    · rename_i hroom
      exact .inl ⟨rfl, hroom⟩
    · exact .inr ⟨by omega, rfl, rfl⟩
  have hdepth : (cs.apply op).depth = (applyToList l op).length := (h.apply op).depth_eq
  have hl : cs.depth = l.length := h.depth_eq
  cases op with
  | call f => exact hpush _
  | scriptCall f varargs window size => exact hpush _
  | instruction pc varargs top =>
    exact .inl ⟨cs.capacity_mapTop _, (cs.mapTop_depth _).trans_le hle⟩
  | ret =>
    rw [applyToList, List.length_tail] at hdepth
    exact .inl ⟨cs.capacity_pop, by omega⟩
  | unwind depth =>
    rw [applyToList, List.length_drop] at hdepth
    exact .inl ⟨cs.capacity_unwindTo depth, by omega⟩

/-- The capacity is a size of the schedule, and every smaller one is below the peak. -/
def Fits (peak capacity : Nat) : Prop :=
  ∃ n, capacity = scheduledCapacity n ∧ peak ≤ scheduledCapacity n ∧
    ∀ k < n, scheduledCapacity k < peak

theorem Fits.isLeast {peak capacity : Nat} (h : Fits peak capacity) :
    IsLeast {c | c ∈ Set.range scheduledCapacity ∧ peak ≤ c} capacity := by
  obtain ⟨n, rfl, hpeak, hbelow⟩ := h
  refine ⟨⟨⟨n, rfl⟩, hpeak⟩, ?_⟩
  rintro c ⟨⟨k, rfl⟩, hk⟩
  by_contra hlt
  exact absurd hk (Nat.not_le.mpr (hbelow k
    (strictMono_scheduledCapacity.lt_iff_lt.mp (Nat.not_le.mp hlt))))

/-- What one operation preserves: the capacity fits the peak so far. -/
theorem Fits.apply {cs : CallStack} {l : List Frame} {peak : Nat} (h : cs.Represents l)
    (hfits : Fits peak cs.capacity) (op : Operation) :
    Fits (max peak (cs.apply op).depth) (cs.apply op).capacity := by
  obtain ⟨n, hn, hpeak, hbelow⟩ := hfits
  obtain ⟨hkept, hdepth⟩ | ⟨hfull, hdepth, hgrown⟩ := apply_capacity_cases h op
  · refine ⟨n, hkept.trans hn, Nat.max_le.mpr ⟨hpeak, hdepth.trans_eq hn⟩, ?_⟩
    intro k hk
    exact Nat.lt_of_lt_of_le (hbelow k hk) (Nat.le_max_left _ _)
  · -- one call more than the slots: the next size holds it, and no smaller one does
    have hnext : scheduledCapacity n < scheduledCapacity (n + 1) :=
      strictMono_scheduledCapacity (Nat.lt_succ_self n)
    have hpeak' : max peak (cs.apply op).depth = scheduledCapacity n + 1 := by omega
    rw [hpeak', hgrown, hn, grownCapacity_scheduledCapacity]
    refine ⟨n + 1, rfl, hnext, ?_⟩
    intro k hk
    exact Nat.lt_succ_of_le
      (strictMono_scheduledCapacity.monotone (Nat.le_of_lt_succ hk))

/-- What a sequence of operations preserves. -/
theorem Fits.run {cs : CallStack} {l : List Frame} {peak : Nat} (h : cs.Represents l)
    (hfits : Fits peak cs.capacity) (hdepth : cs.depth ≤ peak) (ops : List Operation) :
    Fits (max peak (cs.peakDepth ops)) (cs.run ops).capacity := by
  induction ops generalizing cs l peak with
  | nil =>
    rw [peakDepth, Nat.max_eq_left hdepth]
    exact hfits
  | cons op ops ih =>
    have hnext := ih (h.apply op) (hfits.apply h op) (Nat.le_max_right _ _)
    have hpeak : max (max peak (cs.apply op).depth) ((cs.apply op).peakDepth ops) =
        max peak (cs.peakDepth (op :: ops)) := by
      have hle := (cs.apply op).depth_le_peakDepth ops
      rw [peakDepth]
      omega
    rwa [hpeak] at hnext

/-- The capacity after any operations is the least size of the schedule that is no less
than the peak, from a stack without slots. -/
theorem isLeast_capacity (ops : List Operation) :
    IsLeast {c | c ∈ Set.range scheduledCapacity ∧ empty.peakDepth ops ≤ c}
      (empty.run ops).capacity := by
  have hempty : Fits 0 empty.capacity := ⟨0, rfl, Nat.le_refl 0, fun k hk => absurd hk (by omega)⟩
  have hfits := Fits.run .empty hempty (Nat.le_refl 0) ops
  rw [Nat.zero_max] at hfits
  exact hfits.isLeast

/-- The capacity is the least of the scheduled sizes that holds the greatest number of
calls so far, so runs with the same peak end with the same capacity.  It changes only with
a call that finds every slot taken; then there is room for the call, and at least half as
many slots are added as there were.  Below the peak nothing changes it. -/
theorem capacity_told_by_peak (ops : List Operation) :
    IsGreatest {d | ∃ front, front <+: ops ∧ (empty.run front).depth = d}
      (empty.peakDepth ops) ∧
    IsLeast {c | c ∈ Set.range scheduledCapacity ∧ empty.peakDepth ops ≤ c}
      (empty.run ops).capacity ∧
    (∀ ops', empty.peakDepth ops' = empty.peakDepth ops →
      (empty.run ops').capacity = (empty.run ops).capacity) ∧
    (∀ op, let cs := empty.run ops
      (cs.apply op).capacity ≠ cs.capacity →
        cs.depth = cs.capacity ∧ (cs.apply op).depth = cs.depth + 1 ∧
          (cs.apply op).depth ≤ (cs.apply op).capacity ∧
          cs.capacity + cs.capacity / 2 ≤ (cs.apply op).capacity) ∧
    ∀ more, (∀ front, front <+: more →
        (empty.run (ops ++ front)).depth ≤ empty.peakDepth ops) →
      (empty.run (ops ++ more)).capacity = (empty.run ops).capacity := by
  have hsame : ∀ ops', empty.peakDepth ops' = empty.peakDepth ops →
      (empty.run ops').capacity = (empty.run ops).capacity := by
    intro ops' hpeak
    have hleast := isLeast_capacity ops'
    rw [hpeak] at hleast
    exact hleast.unique (isLeast_capacity ops)
  refine ⟨empty.isGreatest_peakDepth ops, isLeast_capacity ops, hsame, ?_, ?_⟩
  · intro op cs hchanged
    have hrep : cs.Represents (replay ops) := run_represents .empty ops
    obtain ⟨hkept, -⟩ | ⟨hfull, hdepth, hgrown⟩ := apply_capacity_cases hrep op
    · exact absurd hkept hchanged
    · refine ⟨hfull, hdepth, (hrep.apply op).depth_le_capacity, ?_⟩
      rw [hgrown]
      exact half_more_le_grownCapacity _
  · intro more hbelow
    apply hsame
    rw [peakDepth_append]
    apply Nat.max_eq_left
    -- the peak of the second run is a depth of the whole one
    obtain ⟨⟨front, hfront, hdepth⟩, -⟩ := (empty.run ops).isGreatest_peakDepth more
    rw [← hdepth]
    simpa only [run, List.foldl_append] using hbelow front hfront

end CallStack

end ScriptDebug
