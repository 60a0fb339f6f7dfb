import ScriptDebug.Proofs.Symbol.Resolve

/-!
# The rules of resolution

What a register is called, as rules: a named local, else what the last instruction that
wrote the register says.  A move from a lower register passes the name on; reading from a
table or an upvalue, loading a constant and setting up a method call give names of their
own.  The rules answer every question, and resolution without a bound finds the answer.

## Implementation notes

`Answers` counts the writing instructions that an answer depends on.  A key that is not a
constant is unknown whatever the rest of its history, so that history does not count.
-/

namespace ScriptDebug

namespace Prototype

/-- Register `reg` is no named local just before `lastPc`, and `i` at `pc` is the last
instruction on the path there that may have written it. -/
structure WrittenBy (p : Prototype) (lastPc reg pc : Nat) (i : Instruction) : Prop where
  unnamed : p.localName? (reg + 1) lastPc = none
  mem_path : pc ∈ p.pathTo lastPc
  code : p.code[pc]? = some i
  writes : i.writes reg = true
  last : ∀ x ∈ p.pathTo lastPc, p.writesAt reg x = true → x ≤ pc

/-- The instruction reads a value under a key `C`, from something of the given kind. -/
inductive Lookup (p : Prototype) (pc : Nat) (i : Instruction) : NameKind → Prop
  | method (hop : i.opcode? = some .self) : p.Lookup pc i .method
  | inGlobals (hop : i.opcode? = some .getTabUp)
      (htable : p.upvalues[i.b]? = some (some environmentName)) : p.Lookup pc i .global
  | inUpvalue (hop : i.opcode? = some .getTabUp)
      (htable : p.upvalues[i.b]? ≠ some (some environmentName)) : p.Lookup pc i .field
  | inLocalGlobals (hop : i.opcode? = some .getTable)
      (htable : p.localName? (i.b + 1) pc = some environmentName) : p.Lookup pc i .global
  | inRegister (hop : i.opcode? = some .getTable)
      (htable : p.localName? (i.b + 1) pc ≠ some environmentName) : p.Lookup pc i .field

/-- The name that an instruction gives by itself, if any. -/
inductive Plain (p : Prototype) (pc : Nat) (i : Instruction) : Option SymbolicName → Prop
  | upvalue (hop : i.opcode? = some .getUpval) :
      p.Plain pc i (some ⟨(p.upvalueName? i.b).getD unknownName, .upvalue⟩)
  | constant (hop : i.opcode? = some .loadK) :
      p.Plain pc i ((p.stringConstant? i.bx).map (⟨·, .constant⟩))
  | constantAfter (hop : i.opcode? = some .loadKX) : p.Plain pc i
      ((p.code[pc + 1]?).bind fun x => (p.stringConstant? x.ax).map (⟨·, .constant⟩))
  | moveDown (hop : i.opcode? = some .move) (hle : i.a ≤ i.b) : p.Plain pc i none
  | other (hop : ∀ op ∈ i.opcode?,
        op ∉ [.move, .getTabUp, .getTable, .getUpval, .loadK, .loadKX, .self]) :
      p.Plain pc i none

/-- `p.Answers k lastPc reg a`: register `reg` is called `a` just before `lastPc`, which
depends on `k` writing instructions. -/
inductive Answers (p : Prototype) : Nat → Nat → Nat → Option SymbolicName → Prop
  | named {lastPc reg name} (h : p.localName? (reg + 1) lastPc = some name) :
      p.Answers 0 lastPc reg (some ⟨name, .localVariable⟩)
  | unwritten {lastPc reg} (h : p.localName? (reg + 1) lastPc = none)
      (hw : ∀ x ∈ p.pathTo lastPc, p.writesAt reg x = false) : p.Answers 0 lastPc reg none
  | plain {lastPc reg pc i a} (hw : p.WrittenBy lastPc reg pc i) (h : p.Plain pc i a) :
      p.Answers 1 lastPc reg a
  | moved {lastPc reg pc i k a} (hw : p.WrittenBy lastPc reg pc i)
      (hop : i.opcode? = some .move) (hlt : i.b < i.a) (h : p.Answers k pc i.b a) :
      p.Answers (k + 1) lastPc reg a
  | constantKey {lastPc reg pc i kind} (hw : p.WrittenBy lastPc reg pc i)
      (hl : p.Lookup pc i kind) (hc : KeyOperand.isConstant i.c = true) :
      p.Answers 1 lastPc reg
        (some ⟨(p.stringConstant? (KeyOperand.constantIndex i.c)).getD unknownName, kind⟩)
  | loadedKey {lastPc reg pc i kind k key} (hw : p.WrittenBy lastPc reg pc i)
      (hl : p.Lookup pc i kind) (hc : KeyOperand.isConstant i.c = false)
      (h : p.Answers k pc i.c (some ⟨key, .constant⟩)) :
      p.Answers (k + 1) lastPc reg (some ⟨key, kind⟩)
  | unknownKey {lastPc reg pc i kind k a} (hw : p.WrittenBy lastPc reg pc i)
      (hl : p.Lookup pc i kind) (hc : KeyOperand.isConstant i.c = false)
      (h : p.Answers k pc i.c a) (ha : ∀ key, a ≠ some ⟨key, .constant⟩) :
      p.Answers 1 lastPc reg (some ⟨unknownName, kind⟩)

variable {p : Prototype} {lastPc reg pc k c : Nat} {i : Instruction} {kind : NameKind}
  {a : Option SymbolicName} {f : Nat → Option SymbolicName}
  {ask : Nat → Nat → Option SymbolicName}

/-! ## Writers -/

theorem WrittenBy.lastWriter?_eq (h : p.WrittenBy lastPc reg pc i) :
    p.lastWriter? lastPc reg = some pc := by
  refine lastWriter?_eq_some_iff.mpr ⟨⟨h.mem_path, ?_⟩, h.last⟩
  rw [writesAt, h.code]
  exact h.writes

theorem WrittenBy.lt (h : p.WrittenBy lastPc reg pc i) : pc < lastPc :=
  (bounds_of_mem_pathTo h.mem_path).1

theorem WrittenBy.nameStep_eq (h : p.WrittenBy lastPc reg pc i) :
    p.nameStep ask lastPc reg = p.nameOfWrite (ask pc) pc i :=
  nameStep_of_written h.unnamed h.lastWriter?_eq h.code

theorem writtenBy_of_lastWriter? (hl : p.localName? (reg + 1) lastPc = none)
    (hw : p.lastWriter? lastPc reg = some pc) : ∃ i, p.WrittenBy lastPc reg pc i := by
  obtain ⟨⟨hpath, hwrites⟩, hlast⟩ := lastWriter?_eq_some_iff.mp hw
  have hpc := (lastWriter?_lt hw).2
  rw [writesAt_of_lt hpc] at hwrites
  exact ⟨p.code[pc], hl, hpath, Array.getElem?_eq_getElem hpc, hwrites, hlast⟩

/-! ## The rule for a writer -/

theorem nameOfWrite_of_move (hop : i.opcode? = some .move) (hlt : i.b < i.a) :
    p.nameOfWrite f pc i = f i.b := by
  simp only [nameOfWrite, hop, if_pos hlt]

theorem nameOfWrite_of_plain (h : p.Plain pc i a) : p.nameOfWrite f pc i = a := by
  cases h with
  | upvalue hop => simp only [nameOfWrite, hop]
  | constant hop =>
    simp only [nameOfWrite, loadedConstant?, hop]
    cases h : p.stringConstant? i.bx <;> simp [h]
  | constantAfter hop =>
    simp only [nameOfWrite, loadedConstant?, hop]
    cases p.code[pc + 1]? with
    | none => rfl
    | some x => cases h : p.stringConstant? x.ax <;> simp [h]
  | moveDown hop hle => simp only [nameOfWrite, hop, if_neg (Nat.not_lt.mpr hle)]
  | other hop =>
    unfold nameOfWrite
    cases hi : i.opcode? with
    | none => rfl
    | some op =>
      have hop := hop op hi
      cases op with
      | move | getTabUp | getTable | getUpval | loadK | loadKX | self => exact absurd (by simp) hop
      | _ => rfl

/-- An upvalue that does not exist is not the one of the globals. -/
theorem indexedTableName?_eq_environment_iff (hop : i.opcode? = some .getTabUp) :
    p.indexedTableName? pc i = some environmentName ↔
      p.upvalues[i.b]? = some (some environmentName) := by
  simp only [indexedTableName?, hop]
  cases p.upvalues[i.b]? with
  | none => simp [unknownName, environmentName]
  | some name => simp

theorem nameOfWrite_of_lookup (h : p.Lookup pc i kind) :
    p.nameOfWrite f pc i = some ⟨p.keyName f i.c, kind⟩ := by
  cases h with
  | method hop => simp only [nameOfWrite, hop]
  | inGlobals hop htable =>
    have hname : p.indexedTableName? pc i = some environmentName :=
      (indexedTableName?_eq_environment_iff hop).mpr htable
    simp only [nameOfWrite, hop, if_pos hname]
  | inUpvalue hop htable =>
    have hname : p.indexedTableName? pc i ≠ some environmentName :=
      mt (indexedTableName?_eq_environment_iff hop).mp htable
    simp only [nameOfWrite, hop, if_neg hname]
  | inLocalGlobals hop htable => simp [nameOfWrite, indexedTableName?, hop, htable]
  | inRegister hop htable => simp [nameOfWrite, indexedTableName?, hop, htable]

/-- Every instruction passes a name on, reads under a key or speaks for itself. -/
theorem writer_cases (p : Prototype) (pc : Nat) (i : Instruction) :
    (i.opcode? = some .move ∧ i.b < i.a) ∨ (∃ kind, p.Lookup pc i kind) ∨
      ∃ a, p.Plain pc i a := by
  cases hop : i.opcode? with
  | none => exact .inr (.inr ⟨_, .other (by simp [hop])⟩)
  | some op =>
    cases op with
    | move =>
      obtain hlt | hle := Nat.lt_or_ge i.b i.a
      · exact .inl ⟨rfl, hlt⟩
      · exact .inr (.inr ⟨_, .moveDown hop hle⟩)
    | self => exact .inr (.inl ⟨_, .method hop⟩)
    | getTabUp =>
      by_cases htable : p.upvalues[i.b]? = some (some environmentName)
      · exact .inr (.inl ⟨_, .inGlobals hop htable⟩)
      · exact .inr (.inl ⟨_, .inUpvalue hop htable⟩)
    | getTable =>
      by_cases htable : p.localName? (i.b + 1) pc = some environmentName
      · exact .inr (.inl ⟨_, .inLocalGlobals hop htable⟩)
      · exact .inr (.inl ⟨_, .inRegister hop htable⟩)
    | getUpval => exact .inr (.inr ⟨_, .upvalue hop⟩)
    | loadK => exact .inr (.inr ⟨_, .constant hop⟩)
    | loadKX => exact .inr (.inr ⟨_, .constantAfter hop⟩)
    | _ => exact .inr (.inr ⟨_, .other (by simp [hop])⟩)

theorem keyName_of_constant (hc : KeyOperand.isConstant c = true) :
    p.keyName f c = (p.stringConstant? (KeyOperand.constantIndex c)).getD unknownName :=
  if_pos hc

theorem keyName_of_loaded {key : String} (hc : KeyOperand.isConstant c = false)
    (h : f c = some ⟨key, .constant⟩) : p.keyName f c = key := by
  simp [keyName, hc, h]

theorem keyName_of_unloaded (hc : KeyOperand.isConstant c = false)
    (h : ∀ key, f c ≠ some ⟨key, .constant⟩) : p.keyName f c = unknownName := by
  rw [keyName, if_neg (by simp [hc])]
  split
  · next name hname => exact absurd hname (h name)
  · rfl

/-! ## Answers of resolution -/

/-- Resolution without a bound gives the answer of the rules. -/
theorem Answers.resolve_eq (h : p.Answers k lastPc reg a) : p.resolve lastPc reg = a := by
  induction h with
  | named h => rw [Prototype.resolve_eq, nameStep_of_local h]
  | unwritten h hw =>
    rw [Prototype.resolve_eq, nameStep_of_unwritten h (lastWriter?_eq_none_iff.mpr hw)]
  | plain hw h => rw [Prototype.resolve_eq, hw.nameStep_eq, nameOfWrite_of_plain h]
  | moved hw hop hlt _ ih =>
    rw [Prototype.resolve_eq, hw.nameStep_eq, nameOfWrite_of_move hop hlt, ih]
  | constantKey hw hl hc =>
    rw [Prototype.resolve_eq, hw.nameStep_eq, nameOfWrite_of_lookup hl, keyName_of_constant hc]
  | loadedKey hw hl hc _ ih =>
    rw [Prototype.resolve_eq, hw.nameStep_eq, nameOfWrite_of_lookup hl, keyName_of_loaded hc ih]
  | unknownKey hw hl hc _ ha ih =>
    rw [Prototype.resolve_eq, hw.nameStep_eq, nameOfWrite_of_lookup hl,
      keyName_of_unloaded hc (by simpa only [ih] using ha)]

/-- The rules answer every question. -/
theorem exists_answers (p : Prototype) (lastPc reg : Nat) :
    ∃ k, p.Answers k lastPc reg (p.resolve lastPc reg) := by
  -- It is enough to find any answer, which is then the one of resolution.
  suffices h : ∃ k a, p.Answers k lastPc reg a by
    obtain ⟨k, a, h⟩ := h
    exact ⟨k, h.resolve_eq.symm ▸ h⟩
  induction lastPc using Nat.strongRecOn generalizing reg with
  | ind lastPc ih =>
    cases hl : p.localName? (reg + 1) lastPc with
    | some name => exact ⟨0, _, .named hl⟩
    | none =>
      cases hw : p.lastWriter? lastPc reg with
      | none => exact ⟨0, _, .unwritten hl (lastWriter?_eq_none_iff.mp hw)⟩
      | some pc =>
        obtain ⟨i, hw⟩ := writtenBy_of_lastWriter? hl hw
        obtain ⟨hop, hlt⟩ | ⟨kind, hlookup⟩ | ⟨a, hplain⟩ := p.writer_cases pc i
        · obtain ⟨k, a, h⟩ := ih pc hw.lt i.b
          exact ⟨_, _, .moved hw hop hlt h⟩
        · cases hc : KeyOperand.isConstant i.c with
          | true => exact ⟨_, _, .constantKey hw hlookup hc⟩
          | false =>
            obtain ⟨k, a, h⟩ := ih pc hw.lt i.c
            by_cases ha : ∃ key, a = some ⟨key, .constant⟩
            · obtain ⟨key, rfl⟩ := ha
              exact ⟨_, _, .loadedKey hw hlookup hc h⟩
            · exact ⟨_, _, .unknownKey hw hlookup hc h fun key heq => ha ⟨key, heq⟩⟩
        · exact ⟨_, _, .plain hw hplain⟩

end Prototype

end ScriptDebug
