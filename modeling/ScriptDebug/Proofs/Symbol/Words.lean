import Mathlib.Algebra.Group.Nat.Defs
import ScriptDebug.Proofs.Symbol.Resolve

/-!
# The scan in machine words

Code is arbitrary, so operands may point anywhere: jumps before the start, a count word
where there is no code left, registers that no window has.  The scan is repeated here with
the arithmetic of machine words, in which a sum, a difference or a conversion that does not
fit has no result, nor has an index outside the code or a step that does not move forward.
The scan has a result all the same, the one of the arithmetic without limits.

## Implementation notes

`none` stands for every kind of failure, also for an allowance of rounds that is used up.
The code is a sequence of words of four bytes, all of them addressed by a signed word, so
there are fewer than `2 ^ 61`.  The power in the limit of a word is the one of Mathlib.
-/

namespace ScriptDebug

/-! ## Words -/

namespace Word

/-- The sum of two words of `w` bits. -/
def add (w a b : Nat) : Option Nat := if a + b < 2 ^ w then some (a + b) else none

/-- The difference of two words. -/
def sub (a b : Nat) : Option Nat := if b ≤ a then some (a - b) else none

/-- The sum of two signed words of `w` bits. -/
def addSigned (w : Nat) (a b : Int) : Option Int :=
  if -(2 ^ (w - 1) : Nat) ≤ a + b ∧ a + b < (2 ^ (w - 1) : Nat) then some (a + b) else none

/-- A word of 64 bits as a signed one. -/
def toSigned (a : Nat) : Option Int := if a < 2 ^ 63 then some a else none

/-- A signed word as an unsigned one. -/
def toUnsigned (a : Int) : Option Nat := if 0 ≤ a then some a.toNat else none

variable {w a b : Nat} {x y : Int}

theorem add_eq (h : a + b < 2 ^ w) : add w a b = some (a + b) := if_pos h

theorem sub_eq (h : b ≤ a) : sub a b = some (a - b) := if_pos h

theorem addSigned_eq (hlow : -(2 ^ (w - 1) : Nat) ≤ x + y) (hhigh : x + y < (2 ^ (w - 1) : Nat)) :
    addSigned w x y = some (x + y) := if_pos ⟨hlow, hhigh⟩

theorem toSigned_eq (h : a < 2 ^ 63) : toSigned a = some (a : Int) := if_pos h

theorem toUnsigned_eq (h : 0 ≤ x) : toUnsigned x = some x.toNat := if_pos h

end Word

/-! ## Instructions -/

namespace Instruction

/-- Whether the instruction may assign register `reg`, in words of 32 bits. -/
def writesChecked (i : Instruction) (reg : Nat) : Option Bool :=
  match i.opcode? with
  | some .loadNil =>
    if i.a ≤ reg then do
      let top ← Word.add 32 i.a i.b
      return reg ≤ top
    else
      some false
  | some .tforCall => do
    let base ← Word.add 32 i.a 2
    return base ≤ reg
  | _ => some (i.writes reg)

/-- The signed operand, in words of 32 bits. -/
def signedBxChecked (i : Instruction) : Option Int := Word.addSigned 32 i.bx (-maxSignedBx)

/-- Where the scan goes after the instruction at `pc`, in words of 64 bits. -/
def nextChecked (i : Instruction) (limit pc : Nat) : Option Nat :=
  match i.opcode? with
  | some .jmp => do
    let offset ← i.signedBxChecked
    let start ← Word.toSigned pc
    let following ← Word.addSigned 64 start 1
    let target ← Word.addSigned 64 following offset
    let last ← Word.toSigned limit
    if start < target ∧ target ≤ last then do
      let target ← Word.toUnsigned target
      let before ← Word.sub target 1
      Word.add 64 before 1
    else
      Word.add 64 pc 1
  | some .setList =>
    if i.c = 0 then do
      let count ← Word.add 64 pc 1
      Word.add 64 count 1
    else
      Word.add 64 pc 1
  | _ => Word.add 64 pc 1

variable {i : Instruction} {reg limit pc : Nat}

theorem writesChecked_eq (i : Instruction) (reg : Nat) :
    i.writesChecked reg = some (i.writes reg) := by
  have ha := i.a_lt
  have hb := i.b_lt
  unfold writesChecked
  split
  · next hop =>
    rw [Word.add_eq (by omega)]
    by_cases hreg : i.a ≤ reg
    · simp [writes, hop, hreg]
    · simp [writes, hop, hreg]
  · next hop =>
    rw [Word.add_eq (by omega)]
    simp [writes, hop]
  · rfl

theorem signedBxChecked_eq (i : Instruction) : i.signedBxChecked = some i.signedBx := by
  have hbx := i.bx_lt
  unfold signedBxChecked maxSignedBx
  rw [Word.addSigned_eq (by omega) (by omega)]
  rfl

theorem nextChecked_eq (hpc : pc < limit) (hlimit : limit < 2 ^ 61) :
    i.nextChecked limit pc = some (i.next limit pc) := by
  have hbx := i.bx_lt
  have hoffset : i.signedBx = (i.bx : Int) - 131071 := by simp [signedBx, maxSignedBx]
  unfold nextChecked
  split
  · next hop =>
    refine Option.bind_eq_some_iff.mpr ⟨_, i.signedBxChecked_eq, ?_⟩
    refine Option.bind_eq_some_iff.mpr ⟨_, Word.toSigned_eq (by omega), ?_⟩
    refine Option.bind_eq_some_iff.mpr ⟨_, Word.addSigned_eq (by omega) (by omega), ?_⟩
    refine Option.bind_eq_some_iff.mpr ⟨_, Word.addSigned_eq (by omega) (by omega), ?_⟩
    refine Option.bind_eq_some_iff.mpr ⟨_, Word.toSigned_eq (by omega), ?_⟩
    simp only [next, hop]
    split
    · next htarget =>
      refine Option.bind_eq_some_iff.mpr ⟨_, Word.toUnsigned_eq (by omega), ?_⟩
      refine Option.bind_eq_some_iff.mpr ⟨_, Word.sub_eq (by omega), ?_⟩
      rw [Word.add_eq (by omega), Nat.sub_add_cancel (by omega)]
    · next htarget => exact Word.add_eq (by omega)
  · next hop =>
    simp only [next, hop]
    split
    · rw [Word.add_eq (by omega)]
      exact Word.add_eq (by omega)
    · exact Word.add_eq (by omega)
  · next hjmp hset =>
    rw [next_of_ne hjmp hset]
    exact Word.add_eq (by omega)

end Instruction

/-! ## The scan -/

namespace Prototype

/-- The scan from `pc` with an allowance of rounds. -/
def scanChecked (p : Prototype) (limit reg : Nat) : Nat → Nat → Option Nat → Option (Option Nat)
  | 0, _, _ => none
  | rounds + 1, pc, found =>
    if pc < limit then do
      let i ← p.code[pc]?
      let writes ← i.writesChecked reg
      let following ← i.nextChecked limit pc
      if pc < following then
        p.scanChecked limit reg rounds following (if writes then some pc else found)
      else
        none
    else
      some found

/-- The last writer of a register, by a scan that visits no instruction twice. -/
def lastWriterChecked (p : Prototype) (lastPc reg : Nat) : Option (Option Nat) :=
  let limit := min lastPc p.code.size
  p.scanChecked limit reg (limit + 1) 0 none

variable {p : Prototype} {limit pc reg : Nat}

theorem scanChecked_eq (h : limit ≤ p.code.size) (hlimit : limit < 2 ^ 61) (found : Option Nat) :
    ∀ rounds, limit - pc < rounds →
      p.scanChecked limit reg rounds pc found = some (p.scanWriters limit h reg pc found) := by
  fun_induction scanWriters p limit h reg pc found with
  | case1 pc found hpc hcode hnext ih =>
    intro rounds hrounds
    obtain ⟨rounds, rfl⟩ := Nat.exists_eq_succ_of_ne_zero (Nat.ne_of_gt (Nat.zero_lt_of_lt hrounds))
    rw [scanChecked, if_pos hpc]
    refine Option.bind_eq_some_iff.mpr ⟨_, Array.getElem?_eq_getElem hcode, ?_⟩
    refine Option.bind_eq_some_iff.mpr ⟨_, Instruction.writesChecked_eq _ _, ?_⟩
    refine Option.bind_eq_some_iff.mpr ⟨_, Instruction.nextChecked_eq hpc hlimit, ?_⟩
    rw [dite_eq_ite] at ih
    exact (if_pos hnext).trans (ih rounds (by omega))
  | case2 pc found hpc =>
    intro rounds hrounds
    obtain ⟨rounds, rfl⟩ := Nat.exists_eq_succ_of_ne_zero (Nat.ne_of_gt (Nat.zero_lt_of_lt hrounds))
    rw [scanChecked, if_neg hpc]

theorem lastWriterChecked_eq (hsize : p.code.size < 2 ^ 61) (lastPc reg : Nat) :
    p.lastWriterChecked lastPc reg = some (p.lastWriter? lastPc reg) :=
  scanChecked_eq (Nat.min_le_right ..) (by omega) none _ (Nat.lt_succ_self _)

end Prototype

end ScriptDebug
