import ScriptDebug.Bytecode.Prototype

/-!
# The last instruction that writes a register

A prototype is read forwards from its start to a point of interest, and the last
instruction on that path that may write a given register is remembered.  Forward
jumps that do not pass the point are followed, and the raw count word after a
`SETLIST` is stepped over.

## Implementation notes

`Instruction.writes` and `Instruction.next` are the whole model of execution;
the scan itself only iterates them.  Each step moves strictly forward
(`Instruction.lt_next`), which bounds the scan for arbitrary code.
-/

namespace ScriptDebug

namespace Instruction

/-- Whether the instruction may assign register `reg`.  Calls clobber every
register from their base on, a generic `for` call those of its results. -/
def writes (i : Instruction) (reg : Nat) : Bool :=
  match i.opcode? with
  | none => false
  | some .loadNil => i.a ≤ reg && reg ≤ i.a + i.b
  | some .tforCall => i.a + 2 ≤ reg
  | some .call | some .tailCall => i.a ≤ reg
  | some .test => reg == i.a
  | some op => op.assignsA && reg == i.a

/-- Where the scan goes after the instruction at `pc` when it must not pass `limit`. -/
def next (i : Instruction) (limit pc : Nat) : Nat :=
  match i.opcode? with
  | some .jmp =>
    let target : Int := pc + 1 + i.signedBx
    if pc < target ∧ target ≤ limit then target.toNat else pc + 1
  | some .setList => if i.c = 0 then pc + 2 else pc + 1
  | _ => pc + 1

theorem lt_next (i : Instruction) (limit pc : Nat) : pc < i.next limit pc := by
  unfold next
  split
  · dsimp only
    split <;> omega
  · split <;> omega
  · omega

end Instruction

namespace Prototype

/-- Continue the scan at `pc`, `found` being the last writer so far. -/
def scanWriters (p : Prototype) (limit : Nat) (h : limit ≤ p.code.size) (reg pc : Nat)
    (found : Option Nat) : Option Nat :=
  if hpc : pc < limit then
    have hcode : pc < p.code.size := by omega
    have hnext := p.code[pc].lt_next limit pc
    p.scanWriters limit h reg (p.code[pc].next limit pc)
      (if p.code[pc].writes reg then some pc else found)
  else
    found
termination_by limit - pc

/-- The last instruction before `lastPc` that may have written register `reg`. -/
def lastWriter? (p : Prototype) (lastPc reg : Nat) : Option Nat :=
  p.scanWriters (min lastPc p.code.size) (Nat.min_le_right ..) reg 0 none

theorem scanWriters_lt {p : Prototype} {limit : Nat} {h : limit ≤ p.code.size} {reg pc : Nat}
    {found : Option Nat} (hfound : ∀ w, found = some w → w < limit) {w : Nat}
    (hw : p.scanWriters limit h reg pc found = some w) : w < limit := by
  fun_induction scanWriters p limit h reg pc found with
  | case1 pc found hpc hcode hnext ih =>
    refine ih (fun w hw => ?_) hw
    split at hw
    · cases hw
      exact hpc
    · exact hfound w hw
  | case2 pc found hpc => exact hfound w hw

/-- A last writer lies before the point of interest and inside the code. -/
theorem lastWriter?_lt {p : Prototype} {lastPc reg w : Nat}
    (hw : p.lastWriter? lastPc reg = some w) : w < lastPc ∧ w < p.code.size := by
  have := scanWriters_lt (by simp) hw
  omega

end Prototype

end ScriptDebug
