import ScriptDebug.Thread.Basic

/-!
# Calls by their position

Calls are counted from the outer end here, so that a call keeps its number whatever is
pushed above it.  Each change of a stack leaves alone all numbers below the innermost
calls that it is about.
-/

namespace ScriptDebug

namespace CallStack

/-- The call with a number, counted from the outer end and from 0. -/
def callAt (cs : CallStack) (i : Nat) : Option Frame := (cs.slots[i]?).join

variable {cs cs' : CallStack} {i : Nat}

theorem frame?_eq_callAt (cs : CallStack) (level : Int) : cs.frame? level =
    if 1 ≤ level ∧ level ≤ cs.depth then cs.callAt (cs.depth - level.toNat) else none := rfl

/-- Stacks with the same calls answer alike at every level. -/
theorem frame?_congr (hdepth : cs'.depth = cs.depth)
    (hcalls : ∀ i, i < cs.depth → cs'.callAt i = cs.callAt i) (level : Int) :
    cs'.frame? level = cs.frame? level := by
  rw [frame?_eq_callAt, frame?_eq_callAt, hdepth]
  split
  · exact hcalls _ (by omega)
  · rfl

theorem callAt_grow (cs : CallStack) (i : Nat) : cs.grow.callAt i = cs.callAt i := by
  unfold grow
  split
  · rfl
  · simp only [callAt, Array.getElem?_append, Array.getElem?_replicate]
    split
    · rfl
    · rw [Array.getElem?_eq_none (by omega)]
      split <;> rfl

theorem callAt_push (fr : Frame) (hi : i < cs.depth) : (cs.push fr).callAt i = cs.callAt i := by
  rw [← callAt_grow cs i]
  simp only [push, callAt, grow_depth]
  rw [Array.getElem?_setIfInBounds_ne (by omega)]

theorem callAt_pop (hi : i + 1 < cs.depth) : cs.pop.callAt i = cs.callAt i := by
  unfold pop
  split
  · rfl
  · simp only [callAt]
    rw [Array.getElem?_setIfInBounds_ne (by omega)]

theorem callAt_mapTop (f : Frame → Frame) (hi : i + 1 < cs.depth) :
    (cs.mapTop f).callAt i = cs.callAt i := by
  unfold mapTop
  split
  · rfl
  · simp only [callAt]
    rw [Array.getElem?_modify, if_neg (by omega)]

private theorem repeat_pop (n : Nat) (cs : CallStack) :
    (Nat.repeat pop n cs).depth = cs.depth - n ∧
      ∀ i, i + n < cs.depth → (Nat.repeat pop n cs).callAt i = cs.callAt i := by
  induction n with
  | zero => exact ⟨rfl, fun _ _ => rfl⟩
  | succ n ih =>
      obtain ⟨hdepth, hcalls⟩ := ih
      constructor
      · rw [Nat.repeat, pop_depth, hdepth]
        omega
      · intro i hi
        rw [Nat.repeat, callAt_pop (by omega), hcalls i (by omega)]

theorem unwindTo_depth (cs : CallStack) {d : Nat} (hd : d ≤ cs.depth) :
    (cs.unwindTo d).depth = d := by
  rw [unwindTo, (repeat_pop _ cs).1]
  omega

theorem callAt_unwindTo {d : Nat} (hd : d ≤ cs.depth) (hi : i < d) :
    (cs.unwindTo d).callAt i = cs.callAt i :=
  (repeat_pop _ cs).2 i (by omega)

end CallStack

end ScriptDebug
