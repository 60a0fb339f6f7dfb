import ScriptDebug.Thread.CallStack

/-!
# The call stack behaves as a list of calls

Slots are recycled and their array grows on a schedule of its own.  Whatever is
done to a stack, it shows what a plain list of calls shows, innermost first.

## Implementation notes

The slots of a stack are those calls outermost first, followed by vacant slots
(`Represents`).  This says at once that the cursor lies within the array and that
nothing is left in the slots above it; each operation has one lemma about it.
-/

namespace ScriptDebug

namespace CallStack

/-- One change of a call stack. -/
inductive Operation where
  | call (f : FunctionId)
  | scriptCall (f : FunctionId) (varargs : List Value) (window : WindowId) (size : Nat)
  | instruction (pc : Nat) (varargs : List Value) (top : Nat)
  | ret
  | unwind (depth : Nat)

/-- A stack after one operation. -/
def apply (cs : CallStack) : Operation → CallStack
  | .call f => cs.push (.bare f)
  | .scriptCall f varargs window size => cs.push (.script f varargs window size)
  | .instruction pc varargs top => cs.mapTop (·.advance pc varargs top)
  | .ret => cs.pop
  | .unwind depth => cs.unwindTo depth

/-- A stack after a sequence of operations. -/
def run (cs : CallStack) (ops : List Operation) : CallStack := ops.foldl apply cs

/-- What an operation does to a plain list of calls, innermost first. -/
def applyToList (l : List Frame) : Operation → List Frame
  | .call f => .bare f :: l
  | .scriptCall f varargs window size => .script f varargs window size :: l
  | .instruction pc varargs top => l.modifyHead (·.advance pc varargs top)
  | .ret => l.tail
  | .unwind depth => l.drop (l.length - depth)

/-- The list of calls that a sequence of operations leaves, from no calls at all. -/
def replay (ops : List Operation) : List Frame := ops.foldl applyToList []

private theorem modify_at_length {α : Type} (pre post : List α) (a : α) (f : α → α) :
    (pre ++ a :: post).modify pre.length f = pre ++ f a :: post := by
  induction pre with
  | nil => rfl
  | cons b pre ih => simpa using ih

/-- The slots hold the calls of a list, outermost first, and are vacant above. -/
structure Represents (cs : CallStack) (l : List Frame) : Prop where
  depth_eq : cs.depth = l.length
  slots_eq : ∃ vacant, cs.slots.toList = l.reverse.map some ++ List.replicate vacant none

namespace Represents

variable {cs : CallStack} {l : List Frame}

theorem empty : Represents .empty [] := ⟨rfl, 0, rfl⟩

/-- The vacant slots are as many as the array has beyond the calls. -/
theorem exists_vacant (h : cs.Represents l) : ∃ vacant,
    cs.slots.toList = l.reverse.map some ++ List.replicate vacant none ∧
      cs.capacity = cs.depth + vacant := by
  obtain ⟨vacant, hs⟩ := h.slots_eq
  have hlen := congrArg List.length hs
  simp only [Array.length_toList, List.length_append, List.length_map, List.length_reverse,
    List.length_replicate] at hlen
  rw [← h.depth_eq] at hlen
  exact ⟨vacant, hs, hlen⟩

theorem depth_le_capacity (h : cs.Represents l) : cs.depth ≤ cs.capacity := by
  obtain ⟨vacant, -, hcap⟩ := h.exists_vacant
  omega

/-- A taken slot holds the call that lies as many places from the outer end. -/
theorem getElem?_of_lt (h : cs.Represents l) {i : Nat} (hi : i < cs.depth) :
    cs.slots[i]? = (l[cs.depth - 1 - i]?).map some := by
  obtain ⟨vacant, hs⟩ := h.slots_eq
  have hil : i < l.length := h.depth_eq ▸ hi
  rw [← Array.getElem?_toList, hs, List.getElem?_append_left (by simpa using hil),
    List.getElem?_map, List.getElem?_reverse hil, h.depth_eq]

theorem getElem?_of_le (h : cs.Represents l) {i : Nat} (hi : cs.depth ≤ i)
    (hc : i < cs.capacity) : cs.slots[i]? = some none := by
  obtain ⟨vacant, hs, hcap⟩ := h.exists_vacant
  have hlen : (l.reverse.map some).length = cs.depth := by simp [h.depth_eq]
  rw [← Array.getElem?_toList, hs, List.getElem?_append_right (hlen ▸ hi),
    List.getElem?_replicate, if_pos]
  omega

/-! ## The operations -/

theorem grow (h : cs.Represents l) : cs.grow.Represents l := by
  constructor
  · rw [grow_depth, h.depth_eq]
  · obtain ⟨vacant, hs⟩ := h.slots_eq
    unfold CallStack.grow
    split
    · exact ⟨vacant, hs⟩
    · refine ⟨vacant + (grownCapacity cs.slots.size - cs.slots.size), ?_⟩
      simp [hs, List.append_assoc]

theorem lt_grow_capacity (h : cs.Represents l) : cs.depth < cs.grow.capacity := by
  have hle := h.depth_le_capacity
  have hlt := lt_grownCapacity cs.slots.size
  unfold CallStack.grow
  simp only [capacity] at hle ⊢
  split
  · assumption
  · simp only [Array.size_append, Array.size_replicate]
    omega

theorem push (h : cs.Represents l) (fr : Frame) : (cs.push fr).Represents (fr :: l) := by
  have hd : cs.depth = l.length := h.depth_eq
  constructor
  · simp [hd]
  · obtain ⟨vacant, hs, hcap⟩ := h.grow.exists_vacant
    have hpos : vacant ≠ 0 := by
      have hroom := h.lt_grow_capacity
      rw [hcap, grow_depth] at hroom
      omega
    obtain ⟨vacant, rfl⟩ := Nat.exists_eq_succ_of_ne_zero hpos
    refine ⟨vacant, ?_⟩
    have hset : l.length = (l.reverse.map some).length := by simp
    simp only [CallStack.push, grow_depth, Array.toList_setIfInBounds, hs, hd]
    rw [hset, List.set_append_right _ _ (Nat.le_refl _)]
    simp [List.replicate_succ]

/-- Leaving the innermost call; nothing happens without calls. -/
theorem pop (h : cs.Represents l) : cs.pop.Represents l.tail := by
  cases l with
  | nil =>
      have hd : cs.depth = 0 := h.depth_eq
      simpa [CallStack.pop, hd] using h
  | cons fr rest =>
      have hd : cs.depth = rest.length + 1 := h.depth_eq
      constructor
      · simp [hd]
      · obtain ⟨vacant, hs⟩ := h.slots_eq
        refine ⟨vacant + 1, ?_⟩
        have hset : rest.length = (rest.reverse.map some).length := by simp
        simp only [CallStack.pop, hd, Nat.add_one_ne_zero, if_false, Nat.add_sub_cancel,
          Array.toList_setIfInBounds, hs, List.tail_cons, List.reverse_cons, List.map_append,
          List.append_assoc]
        rw [hset, List.set_append_right _ _ (Nat.le_refl _)]
        simp [List.replicate_succ]

theorem mapTop (h : cs.Represents l) (f : Frame → Frame) :
    (cs.mapTop f).Represents (l.modifyHead f) := by
  cases l with
  | nil =>
      have hd : cs.depth = 0 := h.depth_eq
      simpa [CallStack.mapTop, hd] using h
  | cons fr rest =>
      have hd : cs.depth = rest.length + 1 := h.depth_eq
      constructor
      · simp [hd]
      · obtain ⟨vacant, hs⟩ := h.slots_eq
        refine ⟨vacant, ?_⟩
        have hset : rest.length = (rest.reverse.map some).length := by simp
        simp only [CallStack.mapTop, hd, Nat.add_one_ne_zero, if_false, Nat.add_sub_cancel,
          Array.toList_modify, hs, List.modifyHead_cons, List.reverse_cons, List.map_append,
          List.append_assoc]
        simp only [List.map_cons, List.map_nil, List.singleton_append]
        rw [hset, modify_at_length]
        simp

theorem unwindTo (h : cs.Represents l) (depth : Nat) :
    (cs.unwindTo depth).Represents (l.drop (l.length - depth)) := by
  have hpops : ∀ n : Nat, (Nat.repeat CallStack.pop n cs).Represents (l.drop n) := by
    intro n
    induction n with
    | zero => simpa [Nat.repeat] using h
    | succ n ih => simpa [Nat.repeat, List.tail_drop] using ih.pop
  rw [← h.depth_eq]
  exact hpops (cs.depth - depth)

/-- What one operation preserves: the slots go along with the list. -/
theorem apply (h : cs.Represents l) (op : Operation) :
    (cs.apply op).Represents (applyToList l op) := by
  cases op with
  | call f => exact h.push _
  | scriptCall f varargs window size => exact h.push _
  | instruction pc varargs top => exact h.mapTop _
  | ret => exact h.pop
  | unwind depth => exact h.unwindTo depth

end Represents

/-- What a sequence of operations preserves. -/
theorem run_represents {cs : CallStack} {l : List Frame} (h : cs.Represents l)
    (ops : List Operation) : (cs.run ops).Represents (ops.foldl applyToList l) := by
  induction ops generalizing cs l with
  | nil => exact h
  | cons op ops ih => exact ih (h.apply op)

/-! ## What a stack shows -/

/-- Everything that a stack shows of its calls, told from a list of them. -/
structure Shows (cs : CallStack) (l : List Frame) : Prop where
  depth : cs.depth = l.length
  levels_calls : cs.levels.map Prod.fst = l
  levels_numbers : cs.levels.map Prod.snd = List.range' 1 l.length
  frame : ∀ level : Int, cs.frame? level =
    if 1 ≤ level ∧ level ≤ l.length then l[level.toNat - 1]? else none
  caller : ∀ level : Int, cs.callerOf? level =
    if 0 ≤ level ∧ level < l.length then l[level.toNat]? else none
  /-- The innermost call of a function, with its level. -/
  find : ∀ f fr level, cs.findCall? f = some (fr, level) ↔
    1 ≤ level ∧ l[level - 1]? = some fr ∧ fr.callee = f ∧
      ∀ j fr', j < level - 1 → l[j]? = some fr' → fr'.callee ≠ f
  find_none : ∀ f, cs.findCall? f = none ↔ ∀ fr ∈ l, fr.callee ≠ f

namespace Represents

variable {cs : CallStack} {l : List Frame}

theorem frames_eq (h : cs.Represents l) : cs.frames = l := by
  obtain ⟨vacant, hs⟩ := h.slots_eq
  have htake : cs.slots.toList.take cs.depth = l.reverse.map some := by
    rw [hs, h.depth_eq]
    exact List.take_left' (by simp)
  simp [frames, htake, List.filterMap_map]

theorem frame?_eq (h : cs.Represents l) (level : Int) : cs.frame? level =
    if 1 ≤ level ∧ level ≤ l.length then l[level.toNat - 1]? else none := by
  simp only [frame?, h.depth_eq]
  split
  · rename_i hlevel
    have hlt : l.length - level.toNat < cs.depth := by
      rw [h.depth_eq]
      omega
    have hpos : cs.depth - 1 - (l.length - level.toNat) = level.toNat - 1 := by
      rw [h.depth_eq]
      omega
    rw [h.getElem?_of_lt hlt, hpos]
    cases l[level.toNat - 1]? <;> rfl
  · rfl

theorem findCall?_eq (h : cs.Represents l) (f : FunctionId) :
    cs.findCall? f = (l.zipIdx 1).find? fun p => p.1.callee == f := by
  simp only [findCall?, levels, h.frames_eq]

theorem shows (h : cs.Represents l) : cs.Shows l where
  depth := h.depth_eq
  levels_calls := by simp [levels, h.frames_eq]
  levels_numbers := by simp [levels, h.frames_eq]
  frame := h.frame?_eq
  caller := by
    intro level
    rw [callerOf?, h.frame?_eq]
    have hcond : (1 ≤ level + 1 ∧ level + 1 ≤ l.length) ↔ (0 ≤ level ∧ level < l.length) := by
      omega
    have hidx : (level + 1).toNat - 1 = level.toNat := by omega
    simp only [hcond, hidx]
  find := by
    intro f fr level
    rw [h.findCall?_eq, List.find?_eq_some_iff_getElem]
    simp only [List.getElem_zipIdx, List.length_zipIdx, Prod.mk.injEq, beq_iff_eq]
    constructor
    · rintro ⟨hf, i, hi, ⟨hfr, hlevel⟩, hfirst⟩
      obtain rfl : i = level - 1 := by omega
      refine ⟨by omega, by rw [List.getElem?_eq_getElem hi, hfr], hf, ?_⟩
      intro j fr' hj hfr'
      obtain ⟨hjl, rfl⟩ := List.getElem?_eq_some_iff.mp hfr'
      simpa using hfirst j hj
    · rintro ⟨hpos, hfr, hf, hfirst⟩
      obtain ⟨hi, rfl⟩ := List.getElem?_eq_some_iff.mp hfr
      refine ⟨hf, level - 1, hi, ⟨rfl, by omega⟩, ?_⟩
      intro j hj
      simpa using hfirst j _ hj (List.getElem?_eq_getElem (by omega))
  find_none := by
    intro f
    rw [h.findCall?_eq, List.find?_eq_none]
    constructor
    · intro hnone fr hfr
      obtain ⟨i, hi, rfl⟩ := List.getElem_of_mem hfr
      simpa using hnone (l[i], 1 + i) (List.mk_add_mem_zipIdx_iff_getElem?.mpr (by simp [hi]))
    · rintro hnone ⟨fr, i⟩ hmem
      simpa using hnone fr (List.fst_mem_of_mem_zipIdx hmem)

end Represents

/-! ## Slots over a run -/

@[simp] theorem capacity_pop (cs : CallStack) : cs.pop.capacity = cs.capacity := by
  simp only [pop, capacity]
  split <;> simp

@[simp] theorem capacity_mapTop (cs : CallStack) (f : Frame → Frame) :
    (cs.mapTop f).capacity = cs.capacity := by
  simp only [mapTop, capacity]
  split <;> simp

@[simp] theorem capacity_unwindTo (cs : CallStack) (depth : Nat) :
    (cs.unwindTo depth).capacity = cs.capacity := by
  suffices ∀ n : Nat, (Nat.repeat pop n cs).capacity = cs.capacity from this _
  intro n
  induction n with
  | zero => rfl
  | succ n ih => exact (capacity_pop _).trans ih

/-- Slots are added when none is vacant. -/
theorem capacity_push (cs : CallStack) (fr : Frame) : (cs.push fr).capacity =
    if cs.depth < cs.capacity then cs.capacity else grownCapacity cs.capacity := by
  split
  · rename_i hroom
    simp only [push, grow, capacity, Array.size_setIfInBounds] at hroom ⊢
    rw [if_pos hroom]
  · rename_i hfull
    have hlt := lt_grownCapacity cs.slots.size
    simp only [push, grow, capacity, Array.size_setIfInBounds] at hfull ⊢
    rw [if_neg hfull, Array.size_append, Array.size_replicate]
    omega

theorem capacity_le_apply (cs : CallStack) (op : Operation) :
    cs.capacity ≤ (cs.apply op).capacity := by
  have hpush : ∀ fr, cs.capacity ≤ (cs.push fr).capacity := by
    intro fr
    have hlt := lt_grownCapacity cs.capacity
    rw [capacity_push]
    split <;> omega
  cases op with
  | call f => exact hpush _
  | scriptCall f varargs window size => exact hpush _
  | instruction pc varargs top => exact Nat.le_of_eq (cs.capacity_mapTop _).symm
  | ret => exact Nat.le_of_eq cs.capacity_pop.symm
  | unwind depth => exact Nat.le_of_eq (cs.capacity_unwindTo depth).symm

/-- The array of slots never shrinks. -/
theorem capacity_le_run (cs : CallStack) (ops : List Operation) :
    cs.capacity ≤ (cs.run ops).capacity := by
  induction ops generalizing cs with
  | nil => exact Nat.le_refl _
  | cons op ops ih =>
      calc
        cs.capacity ≤ (cs.apply op).capacity := cs.capacity_le_apply op
        _ ≤ ((cs.apply op).run ops).capacity := ih (cs.apply op)

/-- The slot that a call takes tells of that call alone. -/
theorem Represents.getElem?_push {cs : CallStack} {l : List Frame} (h : cs.Represents l)
    (fr : Frame) : (cs.push fr).slots[cs.depth]? = some (some fr) := by
  rw [(h.push fr).getElem?_of_lt (by simp)]
  simp

theorem Represents.frame?_push {cs : CallStack} {l : List Frame} (h : cs.Represents l)
    (fr : Frame) : (cs.push fr).frame? 1 = some fr := by
  rw [(h.push fr).frame?_eq, if_pos (by simp only [List.length_cons]; omega)]
  rfl

/-- Whatever sequence of operations leads to a stack, it shows the calls that the
same operations leave in a plain list; the cursor stays within the array, the slots
above it are vacant, and the array never shrinks.  A return without calls changes
nothing, and a slot taken again is as it would be in a new stack. -/
theorem run_refines_list (ops : List Operation) :
    (empty.run ops).Shows (replay ops) ∧
      (empty.run ops).depth ≤ (empty.run ops).capacity ∧
      (∀ i, (empty.run ops).depth ≤ i → i < (empty.run ops).capacity →
        (empty.run ops).slots[i]? = some none) ∧
      (∀ more, (empty.run ops).capacity ≤ (empty.run (ops ++ more)).capacity) ∧
      (replay ops = [] → (empty.run ops).pop = empty.run ops) ∧
      (∀ fr, ((empty.run ops).push fr).slots[(empty.run ops).depth]? =
        (empty.push fr).slots[empty.depth]?) ∧
      (∀ f, ((empty.run ops).apply (.call f)).frame? 1 = some ⟨f, 0, 0, [], none⟩) ∧
      (∀ f varargs window size, ((empty.run ops).apply (.scriptCall f varargs window size)).frame? 1 =
        some ⟨f, 0, size, varargs, some window⟩) := by
  have hrun : (empty.run ops).Represents (replay ops) := run_represents .empty ops
  refine ⟨hrun.shows, hrun.depth_le_capacity, fun i => hrun.getElem?_of_le, ?_, ?_, ?_, ?_, ?_⟩
  · intro more
    simpa only [run, List.foldl_append] using capacity_le_run (empty.run ops) more
  · intro hnil
    have hd : (empty.run ops).depth = 0 := by rw [hrun.depth_eq, hnil, List.length_nil]
    simp [pop, hd]
  · intro fr
    rw [hrun.getElem?_push, Represents.empty.getElem?_push]
  · intro f
    exact hrun.frame?_push (.bare f)
  · intro f varargs window size
    exact hrun.frame?_push (.script f varargs window size)

end CallStack

end ScriptDebug
