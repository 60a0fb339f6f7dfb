import ScriptDebug.Proofs.Symbol.Rules

/-!
# The bound on nested questions

Resolution follows a limited number of moves and register keys.  An answer that depends on
no more writing instructions than that is found; one that depends on more is lost, in whole
or in its key.  Registers descend along moves, and a key is named only by a register that
was loaded from a constant, so no answer depends on more than 512 writing instructions.

## Implementation notes

The bound in use is smaller than 512, and a chain of moves down the registers goes beyond
it.
-/

namespace ScriptDebug

namespace Prototype

variable {p : Prototype} {lastPc reg pc k bound : Nat} {i : Instruction} {kind : NameKind}
  {a : Option SymbolicName}

/-- What is left of an answer that is out of reach: nothing, or the kind without the key. -/
inductive Lost : Option SymbolicName → Option SymbolicName → Prop
  | whole (answer : Option SymbolicName) : Lost answer none
  | key (name : String) (kind : NameKind) : Lost (some ⟨name, kind⟩) (some ⟨unknownName, kind⟩)

/-! ## How many instructions an answer depends on -/

theorem writes_iff_of_move (hop : i.opcode? = some .move) :
    i.writes reg = true ↔ reg = i.a := by
  simp [Instruction.writes, hop, Opcode.assignsA]

theorem Lookup.ne_constant (h : p.Lookup pc i kind) : kind ≠ .constant := by
  cases h <;> decide

/-- Each move goes to a lower register, and a key that counts was loaded and moved only. -/
theorem Answers.le (h : p.Answers k lastPc reg a) :
    k ≤ min reg 255 + 257 ∧ ∀ key, a = some ⟨key, .constant⟩ → k ≤ min reg 255 + 1 := by
  induction h with
  | named h => exact ⟨Nat.zero_le _, fun _ _ => Nat.zero_le _⟩
  | unwritten h hw => exact ⟨Nat.zero_le _, fun _ _ => Nat.zero_le _⟩
  | plain hw h => exact ⟨by omega, fun _ _ => by omega⟩
  | @moved lastPc reg pc i k a hw hop hlt _ ih =>
    have hreg : reg = i.a := (writes_iff_of_move hop).mp hw.writes
    have ha := i.a_lt
    refine ⟨by omega, fun key hkey => ?_⟩
    have := ih.2 key hkey
    omega
  | constantKey hw hl hc => exact ⟨by omega, fun _ _ => by omega⟩
  | loadedKey hw hl hc _ ih =>
    refine ⟨?_, fun key hkey => ?_⟩
    · have := ih.2 _ rfl
      omega
    · cases hkey
      exact absurd rfl hl.ne_constant
  | unknownKey hw hl hc _ ha ih => exact ⟨by omega, fun _ _ => by omega⟩

/-! ## What a bound leaves of an answer -/

theorem nameWithin_of_named {name : String} (h : p.localName? (reg + 1) lastPc = some name)
    (bound : Nat) : p.nameWithin bound lastPc reg = some ⟨name, .localVariable⟩ := by
  cases bound with
  | zero => simp [nameWithin, h]
  | succ bound => rw [nameWithin_succ, nameStep_of_local h]

theorem nameWithin_of_unwritten (h : p.localName? (reg + 1) lastPc = none)
    (hw : p.lastWriter? lastPc reg = none) (bound : Nat) :
    p.nameWithin bound lastPc reg = none := by
  cases bound with
  | zero => simp [nameWithin, h]
  | succ bound => rw [nameWithin_succ, nameStep_of_unwritten h hw]

theorem WrittenBy.nameWithin_zero (hw : p.WrittenBy lastPc reg pc i) :
    p.nameWithin 0 lastPc reg = none := by simp [nameWithin, hw.unnamed]

theorem WrittenBy.nameWithin_succ (hw : p.WrittenBy lastPc reg pc i) (bound : Nat) :
    p.nameWithin (bound + 1) lastPc reg = p.nameOfWrite (p.nameWithin bound pc) pc i := by
  rw [Prototype.nameWithin_succ, hw.nameStep_eq]

/-- A writer is out of reach of the bound zero, and the rest is a matter of what it says. -/
theorem WrittenBy.exact_or_lost (hw : p.WrittenBy lastPc reg pc i) (hk : 0 < k)
    (h : ∀ bound, (k ≤ bound + 1 → p.nameOfWrite (p.nameWithin bound pc) pc i = a) ∧
      (bound + 1 < k → Lost a (p.nameOfWrite (p.nameWithin bound pc) pc i))) (bound : Nat) :
    (k ≤ bound → p.nameWithin bound lastPc reg = a) ∧
      (bound < k → Lost a (p.nameWithin bound lastPc reg)) := by
  cases bound with
  | zero =>
    rw [hw.nameWithin_zero]
    exact ⟨fun hle => absurd hk (Nat.not_lt.mpr hle), fun _ => .whole a⟩
  | succ bound =>
    rw [hw.nameWithin_succ]
    exact h bound

/-- A bound finds the answers that depend on no more instructions, and loses all others. -/
theorem Answers.exact_or_lost (h : p.Answers k lastPc reg a) (bound : Nat) :
    (k ≤ bound → p.nameWithin bound lastPc reg = a) ∧
      (bound < k → Lost a (p.nameWithin bound lastPc reg)) := by
  induction h generalizing bound with
  | named h => exact ⟨fun _ => nameWithin_of_named h bound, fun hlt => by cases hlt⟩
  | unwritten h hw =>
    have hw := lastWriter?_eq_none_iff.mpr hw
    exact ⟨fun _ => nameWithin_of_unwritten h hw bound, fun hlt => by cases hlt⟩
  | plain hw h =>
    refine hw.exact_or_lost Nat.one_pos (fun bound => ?_) bound
    exact ⟨fun _ => nameOfWrite_of_plain h, fun hlt => by omega⟩
  | moved hw hop hlt _ ih =>
    refine hw.exact_or_lost (Nat.add_one_pos _) (fun bound => ?_) bound
    rw [nameOfWrite_of_move hop hlt, Nat.add_le_add_iff_right, Nat.add_lt_add_iff_right]
    exact ih bound
  | constantKey hw hl hc =>
    refine hw.exact_or_lost Nat.one_pos (fun bound => ?_) bound
    rw [nameOfWrite_of_lookup hl, keyName_of_constant hc]
    exact ⟨fun _ => rfl, fun hlt => by omega⟩
  | @loadedKey lastPc reg pc i kind k key hw hl hc _ ih =>
    refine hw.exact_or_lost (Nat.add_one_pos _) (fun bound => ?_) bound
    rw [nameOfWrite_of_lookup hl, Nat.add_le_add_iff_right, Nat.add_lt_add_iff_right]
    obtain ⟨hexact, hlost⟩ := ih bound
    constructor
    · intro hle
      rw [keyName_of_loaded hc (hexact hle)]
    · intro hlt
      have hkey : p.keyName (p.nameWithin bound pc) i.c = unknownName := by
        generalize hn : p.nameWithin bound pc i.c = n at hlost
        cases hlost hlt with
        | whole => exact keyName_of_unloaded hc (by simp [hn])
        | key => exact keyName_of_loaded hc hn
      rw [hkey]
      exact .key key kind
  | @unknownKey lastPc reg pc i kind k a hw hl hc _ ha ih =>
    refine hw.exact_or_lost Nat.one_pos (fun bound => ?_) bound
    obtain ⟨hexact, hlost⟩ := ih bound
    -- The bound may lose the answer about the key, which leaves the key as unknown as it was.
    have hkey : p.keyName (p.nameWithin bound pc) i.c = unknownName := by
      refine keyName_of_unloaded hc fun key hn => ?_
      obtain hlt | hle := Nat.lt_or_ge bound k
      · rw [hn] at hlost
        cases hlost hlt with
        | key name => exact ha name rfl
      · exact ha key (hexact hle ▸ hn)
    rw [nameOfWrite_of_lookup hl, hkey]
    exact ⟨fun _ => rfl, fun hlt => by omega⟩

/-- The rules answer every question as resolution without a bound does, from at most 512
writing instructions.  The bound in use finds the answers that depend on no more writing
instructions than it allows and loses the others; a bound of 512 finds them all. -/
theorem answers_found_within_bound (p : Prototype) (lastPc reg : Nat) :
    (∃ k, p.Answers k lastPc reg (p.resolve lastPc reg)) ∧
    ∀ k a, p.Answers k lastPc reg a →
      a = p.resolve lastPc reg ∧ k ≤ 512 ∧
      (k ≤ nestingBound → p.registerName? lastPc reg = a) ∧
      (nestingBound < k → Lost a (p.registerName? lastPc reg)) ∧
      ∀ bound, 512 ≤ bound → p.nameWithin bound lastPc reg = a := by
  refine ⟨p.exists_answers lastPc reg, fun k a h => ?_⟩
  have hk : k ≤ 512 := by
    have := h.le.1
    omega
  obtain ⟨hexact, hlost⟩ := h.exact_or_lost nestingBound
  exact ⟨h.resolve_eq.symm, hk, hexact, hlost,
    fun bound hbound => (h.exact_or_lost bound).1 (Nat.le_trans hk hbound)⟩

/-! ## A chain of moves -/

/-- Code that reads an upvalue into register 0 and moves it on through registers 1 to `n`. -/
def moveChain (n : Nat) : Prototype where
  source := none
  lineDefined := 0
  lastLineDefined := 0
  paramCount := 0
  isVararg := false
  windowSize := n + 1
  code := .ofFn fun r : Fin (n + 1) =>
    if r.val = 0 then .ofABC .getUpval 0 0 0 else .ofABC .move r (r - 1) 0
  lines := #[]
  constants := #[]
  locals := []
  upvalues := #[some "u"]

theorem code_moveChain_zero (n : Nat) :
    (moveChain n).code[0]? = some (.ofABC .getUpval 0 0 0) := by
  simp [moveChain]

theorem code_moveChain_succ {n r : Nat} (hr : r < n) :
    (moveChain n).code[r + 1]? = some (.ofABC .move (r + 1) r 0) := by
  simp [moveChain, hr]

theorem opcode?_moveChain {n : Nat} (hn : n < 256) {i : Instruction}
    (hi : i ∈ (moveChain n).code) : i.opcode? = some .getUpval ∨ i.opcode? = some .move := by
  obtain ⟨r, rfl⟩ := Array.mem_ofFn.mp hi
  split
  · exact .inl (Instruction.opcode?_ofABC (by decide) (by decide) (by decide))
  · exact .inr (Instruction.opcode?_ofABC (by omega) (by omega) (by decide))

/-- The instruction at an index of the chain is the last writer of that register. -/
theorem writtenBy_moveChain {n r : Nat} (hn : n < 256) {i : Instruction}
    (hi : (moveChain n).code[r]? = some i) (hw : i.writes r = true) :
    (moveChain n).WrittenBy (r + 1) r r i where
  unnamed := rfl
  mem_path := by
    refine mem_pathTo_of_straight (fun i hi => ?_) (Nat.lt_succ_self r)
      (Array.getElem?_eq_some_iff.mp hi).1
    obtain hop | hop := opcode?_moveChain hn hi <;> simp [hop]
  code := hi
  writes := hw
  last _ hx _ := Nat.le_of_lt_succ (bounds_of_mem_pathTo hx).1

/-- A move of the chain is the last writer of its register. -/
theorem writtenBy_moveChain_succ {n r : Nat} (hn : n < 256) (hr : r < n) :
    ∃ i, (moveChain n).WrittenBy (r + 2) (r + 1) (r + 1) i ∧ i.opcode? = some .move ∧
      i.b = r ∧ i.a = r + 1 := by
  have hop : (Instruction.ofABC .move (r + 1) r 0).opcode? = some .move :=
    Instruction.opcode?_ofABC (by omega) (by omega) (by decide)
  have ha : (Instruction.ofABC .move (r + 1) r 0).a = r + 1 :=
    Instruction.a_ofABC (by omega) (by omega) (by decide)
  have hb : (Instruction.ofABC .move (r + 1) r 0).b = r :=
    Instruction.b_ofABC (by omega) (by omega) (by decide)
  exact ⟨_, writtenBy_moveChain hn (code_moveChain_succ hr)
    ((writes_iff_of_move hop).mpr ha.symm), hop, hb, ha⟩

/-- The rules find the upvalue from every register of the chain. -/
theorem answers_moveChain {n r : Nat} (hn : n < 256) (hr : r ≤ n) :
    (moveChain n).Answers (r + 1) (r + 1) r (some ⟨"u", .upvalue⟩) := by
  induction r with
  | zero =>
    have hop : (Instruction.ofABC .getUpval 0 0 0).opcode? = some .getUpval :=
      Instruction.opcode?_ofABC (by decide) (by decide) (by decide)
    refine .plain (writtenBy_moveChain hn (code_moveChain_zero n) ?_) (.upvalue hop)
    decide
  | succ r ih =>
    obtain ⟨i, hw, hop, hb, ha⟩ := writtenBy_moveChain_succ hn hr
    exact .moved hw hop (by omega) (hb.symm ▸ ih (Nat.le_of_lt hr))

/-- A bound finds nothing from a register that is as far up the chain. -/
theorem nameWithin_moveChain {n r bound : Nat} (hn : n < 256) (hr : r ≤ n) (hbound : bound ≤ r) :
    (moveChain n).nameWithin bound (r + 1) r = none := by
  induction bound generalizing r with
  | zero => rfl
  | succ bound ih =>
    cases r with
    | zero => cases hbound
    | succ r =>
      obtain ⟨i, hw, hop, hb, ha⟩ := writtenBy_moveChain_succ hn hr
      rw [hw.nameWithin_succ, nameOfWrite_of_move hop (by omega), hb]
      exact ih (Nat.le_of_lt hr) (Nat.le_of_succ_le_succ hbound)

/-- A chain of 200 moves loses the name of the upvalue at its start. -/
theorem long_chain_is_unnamed :
    (moveChain 200).Answers 201 201 200 (some ⟨"u", .upvalue⟩) ∧
    (moveChain 200).resolve 201 200 = some ⟨"u", .upvalue⟩ ∧
    (moveChain 200).registerName? 201 200 = none := by
  have hanswer := answers_moveChain (n := 200) (r := 200) (by decide) (by decide)
  exact ⟨hanswer, hanswer.resolve_eq, nameWithin_moveChain (n := 200) (r := 200)
    (by decide) (by decide) (by decide)⟩

end Prototype

end ScriptDebug
