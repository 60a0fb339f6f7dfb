import ScriptDebug.Proofs.Symbol.Words

/-!
# Resolution is safe

Resolution in machine words has a result for any code: no operation on words fails, no
index lies outside the code, and the questions that a resolution asks come to an end, with
the bound on their nesting or without it.

## Implementation notes

`nameChecked` is one question of a resolution.  It is shown once that it asks only about
earlier instructions; the two recursions through it differ in what limits them, the count
of nested questions or the instruction alone.
-/

namespace ScriptDebug

namespace Prototype

/-! ## One question -/

/-- The name of a key operand, `ask` answering questions about registers. -/
def keyNameChecked (p : Prototype) (ask : Nat → Option (Option SymbolicName)) (c : Nat) :
    Option String :=
  if KeyOperand.isConstant c then
    some ((p.stringConstant? (KeyOperand.constantIndex c)).getD unknownName)
  else do
    match ← ask c with
    | some ⟨name, .constant⟩ => return name
    | _ => return unknownName

/-- The name of an indexed table. -/
def indexedTableNameChecked (p : Prototype) (pc : Nat) (i : Instruction) :
    Option (Option String) :=
  match i.opcode? with
  | some .getTable => do
    let n ← Word.add 64 i.b 1
    return p.localName? n pc
  | _ => some (p.indexedTableName? pc i)

/-- The pool index of the constant that a load at `pc` reads. -/
def loadedConstantChecked (p : Prototype) (pc : Nat) (i : Instruction) : Option (Option Nat) :=
  match i.opcode? with
  | some .loadKX => do
    let extra ← Word.add 64 pc 1
    return (p.code[extra]?).map (·.ax)
  | _ => some (p.loadedConstant? pc i)

/-- The name of the value that the instruction at `pc` writes. -/
def nameOfWriteChecked (p : Prototype) (ask : Nat → Option (Option SymbolicName)) (pc : Nat)
    (i : Instruction) : Option (Option SymbolicName) :=
  match i.opcode? with
  | some .move => if i.b < i.a then ask i.b else some none
  | some .getTabUp | some .getTable => do
    let table ← p.indexedTableNameChecked pc i
    let key ← p.keyNameChecked ask i.c
    return some ⟨key, if table = some environmentName then .global else .field⟩
  | some .loadK | some .loadKX => do
    let index ← p.loadedConstantChecked pc i
    return index.bind fun k => (p.stringConstant? k).bind fun s => some ⟨s, .constant⟩
  | some .self => do
    let key ← p.keyNameChecked ask i.c
    return some ⟨key, .method⟩
  | some .getUpval => some (some ⟨(p.upvalueName? i.b).getD unknownName, .upvalue⟩)
  | _ => some none

/-- The name of a register just before `lastPc`; a question that is cut off is answered by
a local variable or not at all. -/
def nameChecked (p : Prototype) (cut : Bool) (ask : Nat → Nat → Option (Option SymbolicName))
    (lastPc reg : Nat) : Option (Option SymbolicName) := do
  let n ← Word.add 64 reg 1
  match p.localName? n lastPc with
  | some name => return some ⟨name, .localVariable⟩
  | none =>
    if cut then
      return none
    else
      match ← p.lastWriterChecked lastPc reg with
      | none => return none
      | some pc =>
        let i ← p.code[pc]?
        p.nameOfWriteChecked (ask pc) pc i

variable {p : Prototype} {pc lastPc reg c : Nat} {i : Instruction}

theorem keyNameChecked_eq {ask : Nat → Option (Option SymbolicName)}
    {f : Nat → Option SymbolicName}
    (h : KeyOperand.isConstant c = false → ask c = some (f c)) :
    p.keyNameChecked ask c = some (p.keyName f c) := by
  unfold keyNameChecked keyName
  cases hc : KeyOperand.isConstant c with
  | true => rfl
  | false =>
    rw [h hc]
    cases f c with
    | none => rfl
    | some n =>
      obtain ⟨name, kind⟩ := n
      cases kind <;> rfl

theorem indexedTableNameChecked_eq (pc : Nat) (i : Instruction) :
    p.indexedTableNameChecked pc i = some (p.indexedTableName? pc i) := by
  have hb := i.b_lt
  unfold indexedTableNameChecked
  split
  · next hop =>
    rw [Word.add_eq (by omega)]
    simp [indexedTableName?, hop]
  · rfl

theorem loadedConstantChecked_eq (hpc : pc < 2 ^ 61) (i : Instruction) :
    p.loadedConstantChecked pc i = some (p.loadedConstant? pc i) := by
  unfold loadedConstantChecked
  split
  · next hop =>
    rw [Word.add_eq (by omega)]
    simp [loadedConstant?, hop]
  · rfl

/-- The rule for an instruction asks only about registers that its operands name. -/
theorem nameOfWriteChecked_eq {ask : Nat → Option (Option SymbolicName)}
    {f : Nat → Option SymbolicName} (hpc : pc < 2 ^ 61)
    (h : ∀ r < 256, ask r = some (f r)) :
    p.nameOfWriteChecked ask pc i = some (p.nameOfWrite f pc i) := by
  have hkey : p.keyNameChecked ask i.c = some (p.keyName f i.c) :=
    keyNameChecked_eq fun hc => h _ (Instruction.c_lt_of_isConstant_eq_false hc)
  unfold nameOfWriteChecked nameOfWrite
  rw [hkey, indexedTableNameChecked_eq, loadedConstantChecked_eq hpc]
  cases i.opcode? with
  | none => rfl
  | some op =>
    cases op with
    | move =>
      dsimp only
      split
      · next hlt => exact h _ (Nat.lt_trans hlt i.a_lt)
      · rfl
    | _ => rfl

/-- A question asks only about earlier instructions of the code: what `ask` does elsewhere
makes no difference. -/
theorem nameChecked_eq {ask : Nat → Nat → Option (Option SymbolicName)}
    {f : Nat → Nat → Option SymbolicName} (hsize : p.code.size < 2 ^ 61) (hreg : reg < 2 ^ 32)
    (h : ∀ pc < lastPc, pc < p.code.size → ∀ r < 256, ask pc r = some (f pc r)) :
    p.nameChecked false ask lastPc reg = some (p.nameStep f lastPc reg) := by
  unfold nameChecked nameStep
  refine Option.bind_eq_some_iff.mpr ⟨_, Word.add_eq (by omega), ?_⟩
  cases p.localName? (reg + 1) lastPc with
  | some name => rfl
  | none =>
    refine Option.bind_eq_some_iff.mpr ⟨_, lastWriterChecked_eq hsize lastPc reg, ?_⟩
    cases hw : p.lastWriter? lastPc reg with
    | none => rfl
    | some pc =>
      obtain ⟨hlast, hcode⟩ := lastWriter?_lt hw
      have hi : p.code[pc]? = some p.code[pc] := Array.getElem?_eq_getElem hcode
      refine Option.bind_eq_some_iff.mpr ⟨_, hi, ?_⟩
      simp only [hi, Option.bind_eq_bind, Option.bind_some]
      exact nameOfWriteChecked_eq (by omega) (h pc hlast hcode)

/-- A question that is cut off. -/
theorem nameChecked_cut (ask : Nat → Nat → Option (Option SymbolicName)) (lastPc : Nat)
    (hreg : reg < 2 ^ 32) :
    p.nameChecked true ask lastPc reg = some (p.nameWithin 0 lastPc reg) := by
  unfold nameChecked nameWithin
  refine Option.bind_eq_some_iff.mpr ⟨_, Word.add_eq (by omega), ?_⟩
  cases p.localName? (reg + 1) lastPc <;> rfl

/-! ## All questions -/

/-- Resolution at a depth of nesting, which is counted in a word of 32 bits, with an
allowance of calls. -/
def boundedChecked (p : Prototype) : Nat → Nat → Nat → Nat → Option (Option SymbolicName)
  | 0, _, _, _ => none
  | calls + 1, depth, lastPc, reg => do
    let deeper ← Word.add 32 depth 1
    p.nameChecked (nestingBound ≤ depth) (p.boundedChecked calls deeper) lastPc reg

/-- Resolution that nothing but the code ends, with an allowance of calls. -/
def unboundedChecked (p : Prototype) : Nat → Nat → Nat → Option (Option SymbolicName)
  | 0, _, _ => none
  | calls + 1, lastPc, reg => p.nameChecked false (p.unboundedChecked calls) lastPc reg

/-- Bounded resolution succeeds when the allowance of calls is larger than the bound leaves
room for nested questions. -/
theorem boundedChecked_eq (hsize : p.code.size < 2 ^ 61) {bound calls depth : Nat}
    (hbound : depth + bound = nestingBound) (hcalls : bound < calls) (hreg : reg < 2 ^ 32) :
    p.boundedChecked calls depth lastPc reg = some (p.nameWithin bound lastPc reg) := by
  have hnesting : nestingBound = 200 := rfl
  induction bound generalizing calls depth lastPc reg with
  | zero =>
    obtain ⟨calls, rfl⟩ := Nat.exists_eq_add_one_of_ne_zero (Nat.ne_of_gt hcalls)
    refine Option.bind_eq_some_iff.mpr ⟨_, Word.add_eq (by omega), ?_⟩
    rw [decide_eq_true (by omega)]
    exact nameChecked_cut _ lastPc hreg
  | succ bound ih =>
    obtain ⟨calls, rfl⟩ := Nat.exists_eq_add_one_of_ne_zero (Nat.ne_zero_of_lt hcalls)
    refine Option.bind_eq_some_iff.mpr ⟨_, Word.add_eq (by omega), ?_⟩
    rw [decide_eq_false (by omega), nameWithin_succ]
    refine nameChecked_eq hsize hreg fun pc _ _ r hr => ?_
    exact ih (by omega) (by omega) (by omega)

/-- Unbounded resolution succeeds when the allowance of calls is larger than the code that
the question leaves room for. -/
theorem unboundedChecked_eq (hsize : p.code.size < 2 ^ 61) {calls : Nat}
    (hcalls : min lastPc p.code.size < calls) (hreg : reg < 2 ^ 32) :
    p.unboundedChecked calls lastPc reg = some (p.resolve lastPc reg) := by
  induction calls generalizing lastPc reg with
  | zero => cases hcalls
  | succ calls ih =>
    rw [unboundedChecked, resolve_eq]
    refine nameChecked_eq hsize hreg fun pc hlast hcode r hr => ?_
    exact ih (by omega) (by omega)

/-! ## Called functions -/

/-- The name of the function that the instruction at `pc` calls, `ask` answering questions
about registers. -/
def calleeChecked (p : Prototype) (ask : Nat → Nat → Option (Option SymbolicName)) (pc : Nat) :
    Option (Option SymbolicName) :=
  match p.code[pc]? with
  | none => some none
  | some i =>
    match i.opcode? with
    | none => some none
    | some .call | some .tailCall => ask pc i.a
    | some .tforCall => some (some ⟨"for iterator", .forIterator⟩)
    | some op => some (op.metamethod?.map fun name => ⟨name, .metamethod⟩)

theorem calleeChecked_eq {ask : Nat → Nat → Option (Option SymbolicName)}
    {f : Nat → Nat → Option SymbolicName} (h : ∀ r < 256, ask pc r = some (f pc r)) :
    p.calleeChecked ask pc = some (p.calleeOf f pc) := by
  unfold calleeChecked calleeOf
  cases p.code[pc]? with
  | none => rfl
  | some i =>
    simp only [Option.bind_eq_bind, Option.bind_some]
    cases i.opcode? with
    | none => rfl
    | some op =>
      cases op with
      | call | tailCall => exact h _ i.a_lt
      | _ => rfl

/-! ## Safety -/

/-- Resolution at any point of any code, about any register.  The scan visits an increasing
sequence of instructions of the code and finds a writer among them; a question asks only
about earlier instructions; and neither the names of registers nor those of called functions
meet an operation that fails, with the bound on nested questions or without it. -/
theorem resolution_never_fails (p : Prototype) (hsize : 4 * p.code.size < 2 ^ 63)
    (pc reg : Nat) (hreg : reg < 2 ^ 32) :
    ((p.pathTo pc).Pairwise (· < ·) ∧ ∀ x ∈ p.pathTo pc, x < p.code.size) ∧
    p.lastWriterChecked pc reg = some (p.lastWriter? pc reg) ∧
    (∀ w, p.lastWriter? pc reg = some w → w ∈ p.pathTo pc ∧ w < pc ∧ w < p.code.size) ∧
    (∀ ask f, (∀ x < pc, x < p.code.size → ∀ r < 256, ask x r = some (f x r)) →
      p.nameChecked false ask pc reg = some (p.nameStep f pc reg)) ∧
    (∀ calls, nestingBound < calls →
      p.boundedChecked calls 0 pc reg = some (p.registerName? pc reg) ∧
      p.calleeChecked (p.boundedChecked calls 0) pc = some (p.calleeName? pc)) ∧
    ∀ calls, min pc p.code.size < calls →
      p.unboundedChecked calls pc reg = some (p.resolve pc reg) ∧
      p.calleeChecked (p.unboundedChecked calls) pc = some (p.calleeOf p.resolve pc) := by
  have hsize : p.code.size < 2 ^ 61 := by omega
  have hoperand : ∀ r < 256, r < 2 ^ 32 := fun r hr => by omega
  refine ⟨⟨p.pairwise_lt_pathTo pc, fun x hx => (bounds_of_mem_pathTo hx).2⟩,
    lastWriterChecked_eq hsize pc reg, ?_, fun ask f => nameChecked_eq hsize hreg, ?_, ?_⟩
  · intro w hw
    exact ⟨(lastWriter?_eq_some_iff.mp hw).1.1, lastWriter?_lt hw⟩
  · intro calls hcalls
    constructor
    · exact boundedChecked_eq hsize (Nat.zero_add _) hcalls hreg
    · rw [calleeName?_eq_calleeOf]
      exact calleeChecked_eq fun r hr =>
        boundedChecked_eq hsize (Nat.zero_add _) hcalls (hoperand r hr)
  · intro calls hcalls
    constructor
    · exact unboundedChecked_eq hsize hcalls hreg
    · exact calleeChecked_eq fun r hr => unboundedChecked_eq hsize hcalls (hoperand r hr)

/-- Code that jumps over a list whose count word is no instruction, then calls a global
under a key from a register. -/
def detour : Prototype where
  source := none
  lineDefined := 0
  lastLineDefined := 0
  paramCount := 0
  isVararg := false
  windowSize := 2
  code := #[.ofABx .loadK 0 0, .ofASignedBx .jmp 0 2, .ofABC .setList 0 0 0, ⟨0xFFFFFFFF⟩,
    .ofABC .setList 0 0 0, ⟨0xFFFFFFFF⟩, .ofABC .getTabUp 1 0 0, .ofABC .call 1 1 1]
  lines := #[]
  constants := #[.string "x"]
  locals := []
  upvalues := #[some environmentName]

/-- The name of the called global is found on the way around the list, and also when
questions are limited by the code alone. -/
theorem detour_names_global :
    4 * detour.code.size < 2 ^ 63 ∧
    (detour.lastWriter? 7 1 = some 6 ∧ 6 ∈ detour.pathTo 7) ∧
    detour.registerName? 7 1 = some ⟨"x", .global⟩ ∧
    detour.calleeName? 7 = some ⟨"x", .global⟩ ∧
    detour.resolve 7 1 = some ⟨"x", .global⟩ := by
  have hsize : 4 * detour.code.size < 2 ^ 63 := by decide
  obtain ⟨-, hscan, hwriter, -, hbounded, hunbounded⟩ :=
    resolution_never_fails detour hsize 7 1 (by decide)
  obtain ⟨hname, hcallee⟩ := hbounded 201 (by decide)
  have hfound : detour.lastWriter? 7 1 = some 6 := by
    rw [← Option.some_inj, ← hscan]
    decide +kernel
  have hresolve := (hunbounded 8 (by decide)).1
  refine ⟨hsize, ⟨hfound, (hwriter 6 hfound).1⟩, ?_, ?_, ?_⟩
  · rw [← Option.some_inj, ← hname]
    decide +kernel
  · rw [← Option.some_inj, ← hcallee]
    decide +kernel
  · rw [← Option.some_inj, ← hresolve]
    decide +kernel

end Prototype

end ScriptDebug
