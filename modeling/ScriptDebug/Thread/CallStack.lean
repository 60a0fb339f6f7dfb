import ScriptDebug.Value.Basic

/-!
# The call stack of a thread

Active calls are kept in an array of slots with a depth cursor.  Slots above the
cursor are vacant and kept for reuse; the array grows by half, at least to four
slots, and never shrinks.

## Implementation notes

`frames` is the view of the stack as a list, innermost call first; levels count
its elements from 1.
-/

namespace ScriptDebug

/-- One active call.  Registers are shared with the code that runs, not copied. -/
structure Frame where
  callee : FunctionId
  /-- The instruction being executed. -/
  pc : Nat
  /-- Registers below `top` are live. -/
  top : Nat
  varargs : List Value
  /-- The registers of the call; native calls have none. -/
  window : Option WindowId
  deriving DecidableEq, Inhabited

namespace Frame

/-- The frame of a call that has no registers. -/
def bare (f : FunctionId) : Frame := ⟨f, 0, 0, [], none⟩

/-- The frame of a script call on a window of the given size. -/
def script (f : FunctionId) (varargs : List Value) (window : WindowId) (size : Nat) : Frame :=
  ⟨f, 0, size, varargs, some window⟩

/-- The frame as it executes another instruction. -/
def advance (fr : Frame) (pc : Nat) (varargs : List Value) (top : Nat) : Frame :=
  { fr with pc, varargs, top }

end Frame

/-- The least number of slots that a growing stack has. -/
def minFrameSlots : Nat := 4

structure CallStack where
  slots : Array (Option Frame)
  depth : Nat
  deriving DecidableEq, Inhabited

namespace CallStack

def empty : CallStack := ⟨#[], 0⟩

def capacity (cs : CallStack) : Nat := cs.slots.size

/-- The number of slots that a full array of `n` slots grows to. -/
def grownCapacity (n : Nat) : Nat := max minFrameSlots (n * 3 / 2)

theorem lt_grownCapacity (n : Nat) : n < grownCapacity n := by
  simp only [grownCapacity, minFrameSlots]
  omega

/-- Add vacant slots when every slot is taken. -/
def grow (cs : CallStack) : CallStack :=
  if cs.depth < cs.slots.size then cs
  else
    { cs with
      slots := cs.slots ++ Array.replicate (grownCapacity cs.slots.size - cs.slots.size) none }

def push (cs : CallStack) (fr : Frame) : CallStack :=
  let cs := cs.grow
  { slots := cs.slots.setIfInBounds cs.depth (some fr), depth := cs.depth + 1 }

/-- Vacate the innermost slot; nothing happens on an empty stack. -/
def pop (cs : CallStack) : CallStack :=
  if cs.depth = 0 then cs
  else { slots := cs.slots.setIfInBounds (cs.depth - 1) none, depth := cs.depth - 1 }

/-- Pop until at most `depth` calls remain. -/
def unwindTo (cs : CallStack) (depth : Nat) : CallStack :=
  Nat.repeat pop (cs.depth - depth) cs

/-- Change the innermost call, if there is one. -/
def mapTop (cs : CallStack) (f : Frame → Frame) : CallStack :=
  if cs.depth = 0 then cs
  else { cs with slots := cs.slots.modify (cs.depth - 1) (Option.map f) }

/-- The active calls, innermost first. -/
def frames (cs : CallStack) : List Frame :=
  ((cs.slots.toList.take cs.depth).filterMap id).reverse

/-- The call at a level, 1 being the innermost. -/
def frame? (cs : CallStack) (level : Int) : Option Frame :=
  if 1 ≤ level ∧ level ≤ cs.depth then (cs.slots[cs.depth - level.toNat]?).join else none

/-- The call that made the call at a level. -/
def callerOf? (cs : CallStack) (level : Int) : Option Frame := cs.frame? (level + 1)

/-- The active calls with their levels, innermost first. -/
def levels (cs : CallStack) : List (Frame × Nat) := cs.frames.zipIdx 1

/-- The innermost call of a function, with its level. -/
def findCall? (cs : CallStack) (f : FunctionId) : Option (Frame × Nat) :=
  cs.levels.find? fun (fr, _) => fr.callee == f

@[simp] theorem grow_depth (cs : CallStack) : cs.grow.depth = cs.depth := by
  unfold grow
  split <;> rfl

@[simp] theorem push_depth (cs : CallStack) (fr : Frame) : (cs.push fr).depth = cs.depth + 1 := by
  simp [push]

@[simp] theorem pop_depth (cs : CallStack) : cs.pop.depth = cs.depth - 1 := by
  unfold pop
  split <;> simp_all

@[simp] theorem mapTop_depth (cs : CallStack) (f : Frame → Frame) :
    (cs.mapTop f).depth = cs.depth := by
  unfold mapTop
  split <;> rfl

end CallStack

end ScriptDebug
