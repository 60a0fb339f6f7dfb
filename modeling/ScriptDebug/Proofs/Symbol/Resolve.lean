import ScriptDebug.Proofs.Bytecode.Operands
import ScriptDebug.Proofs.Symbol.Path

/-!
# Resolution without a bound

Every question that a resolution asks about another register is asked at the last writer,
so at an earlier instruction, and about a register that an operand can name.  Resolution
therefore ends without a bound on the nesting of questions.

## Implementation notes

`nameStep` is one question of either resolution, given the answers to others.  `resolve`
is the recursion through it on the instruction, `nameWithin` the one on the bound.
-/

namespace ScriptDebug

namespace Prototype

variable {p : Prototype} {pc lastPc reg : Nat} {i : Instruction}

/-- The name of a register when `ask` answers the questions about other registers. -/
def nameStep (p : Prototype) (ask : Nat → Nat → Option SymbolicName) (lastPc reg : Nat) :
    Option SymbolicName :=
  match p.localName? (reg + 1) lastPc with
  | some name => some ⟨name, .localVariable⟩
  | none => do
    let pc ← p.lastWriter? lastPc reg
    let i ← p.code[pc]?
    p.nameOfWrite (ask pc) pc i

/-- The name of register `reg` just before `lastPc`, however many questions it takes. -/
def resolve (p : Prototype) (lastPc reg : Nat) : Option SymbolicName :=
  match p.localName? (reg + 1) lastPc with
  | some name => some ⟨name, .localVariable⟩
  | none =>
    match hw : p.lastWriter? lastPc reg with
    | none => none
    | some pc => do
      have := (lastWriter?_lt hw).1
      let i ← p.code[pc]?
      p.nameOfWrite (fun r => p.resolve pc r) pc i
termination_by lastPc

/-- The name of the function that the instruction at `pc` calls when `name` names registers. -/
def calleeOf (p : Prototype) (name : Nat → Nat → Option SymbolicName) (pc : Nat) :
    Option SymbolicName := do
  let i ← p.code[pc]?
  match ← i.opcode? with
  | .call | .tailCall => name pc i.a
  | .tforCall => some ⟨"for iterator", .forIterator⟩
  | op => op.metamethod?.map fun name => ⟨name, .metamethod⟩

theorem calleeName?_eq_calleeOf (p : Prototype) (pc : Nat) :
    p.calleeName? pc = p.calleeOf p.registerName? pc := rfl

theorem nameStep_of_local {ask : Nat → Nat → Option SymbolicName} {name : String}
    (h : p.localName? (reg + 1) lastPc = some name) :
    p.nameStep ask lastPc reg = some ⟨name, .localVariable⟩ := by
  simp only [nameStep, h]

theorem nameStep_of_unwritten {ask : Nat → Nat → Option SymbolicName}
    (h : p.localName? (reg + 1) lastPc = none) (hw : p.lastWriter? lastPc reg = none) :
    p.nameStep ask lastPc reg = none := by
  simp only [nameStep, h, hw]
  rfl

theorem nameStep_of_written {ask : Nat → Nat → Option SymbolicName}
    (h : p.localName? (reg + 1) lastPc = none) (hw : p.lastWriter? lastPc reg = some pc)
    (hi : p.code[pc]? = some i) :
    p.nameStep ask lastPc reg = p.nameOfWrite (ask pc) pc i := by
  simp [nameStep, h, hw, hi]

theorem nameWithin_succ (p : Prototype) (bound lastPc reg : Nat) :
    p.nameWithin (bound + 1) lastPc reg = p.nameStep (p.nameWithin bound) lastPc reg := by
  unfold nameWithin nameStep
  rfl

theorem resolve_eq (p : Prototype) (lastPc reg : Nat) :
    p.resolve lastPc reg = p.nameStep p.resolve lastPc reg := by
  rw [resolve, nameStep]
  cases hl : p.localName? (reg + 1) lastPc with
  | some name => rfl
  | none =>
    dsimp only
    split
    · next hw => rw [hw]; rfl
    · next pc hw => rw [hw]; rfl

end Prototype

end ScriptDebug
