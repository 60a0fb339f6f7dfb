import ScriptDebug.Proofs.Symbol.Safety
import ScriptDebug.Proofs.Symbol.Scan

/-!
# Later code names nothing

The name of a register or of a called function is told from the code up to the point of
interest.  Jumps, the count of a list and the extra word of a load reach ahead, but none of
them past that point: two prototypes that agree so far give the same names, whatever comes
after.

## Implementation notes

A nested question is asked at an earlier instruction, and the prototypes agree there all the
more.  A load may read the word that follows it, which is the instruction at the point of
interest at the latest.
-/

namespace ScriptDebug

namespace Prototype

/-- Two prototypes have the same tables and the same code up to `pc`, and both go on after
it in some way. -/
structure AgreeUpTo (p q : Prototype) (pc : Nat) : Prop where
  constants : p.constants = q.constants
  upvalues : p.upvalues = q.upvalues
  locals : p.locals = q.locals
  code : ∀ x ≤ pc, p.code[x]? = q.code[x]?
  left_size : pc < p.code.size
  right_size : pc < q.code.size

variable {p q : Prototype} {lastPc pc reg : Nat} {path : List Nat}

namespace AgreeUpTo

theorem mono (h : p.AgreeUpTo q lastPc) (hle : pc ≤ lastPc) : p.AgreeUpTo q pc where
  constants := h.constants
  upvalues := h.upvalues
  locals := h.locals
  code x hx := h.code x (Nat.le_trans hx hle)
  left_size := Nat.lt_of_le_of_lt hle h.left_size
  right_size := Nat.lt_of_le_of_lt hle h.right_size

/-! ## The last writer -/

theorem reads (h : p.AgreeUpTo q lastPc) (hpath : p.Reads lastPc pc path) :
    q.Reads lastPc pc path := by
  induction hpath with
  | done hle => exact .done hle
  | step hpc hcode hnext _ ih =>
    exact .step hpc ((h.code _ (Nat.le_of_lt hpc)).symm.trans hcode) hnext ih

/-- The same path leads to a point of interest. -/
theorem pathTo_eq (h : p.AgreeUpTo q lastPc) : p.pathTo lastPc = q.pathTo lastPc := by
  have hleft : min lastPc p.code.size = lastPc := Nat.min_eq_left (Nat.le_of_lt h.left_size)
  have hright : min lastPc q.code.size = lastPc := Nat.min_eq_left (Nat.le_of_lt h.right_size)
  have hpath : p.Reads lastPc 0 (p.pathTo lastPc) := by
    have := (reads_iff (p.min_le_size lastPc)).mpr (rfl : p.pathTo lastPc = _)
    rwa [hleft] at this
  apply (reads_iff (q.min_le_size lastPc)).mp
  rw [hright]
  exact h.reads hpath

theorem writesAt_eq (h : p.AgreeUpTo q lastPc) (hpc : pc ≤ lastPc) :
    p.writesAt reg pc = q.writesAt reg pc := by
  rw [writesAt, writesAt, h.code pc hpc]

theorem lastWriter?_eq (h : p.AgreeUpTo q lastPc) (reg : Nat) :
    p.lastWriter? lastPc reg = q.lastWriter? lastPc reg := by
  rw [lastWriter?_eq_getLast?, lastWriter?_eq_getLast?, h.pathTo_eq]
  congr 1
  apply List.filter_congr
  intro x hx
  exact h.writesAt_eq (Nat.le_of_lt (bounds_of_mem_pathTo hx).1)

/-! ## What a writer says -/

theorem localName?_eq (h : p.AgreeUpTo q lastPc) (n pc : Nat) :
    p.localName? n pc = q.localName? n pc := by
  rw [localName?, localName?, localsAt, localsAt, h.locals]

theorem stringConstant?_eq (h : p.AgreeUpTo q lastPc) (k : Nat) :
    p.stringConstant? k = q.stringConstant? k := by
  rw [stringConstant?, stringConstant?, h.constants]

theorem keyName_eq (h : p.AgreeUpTo q lastPc) (f : Nat → Option SymbolicName) (c : Nat) :
    p.keyName f c = q.keyName f c := by
  rw [keyName, keyName, h.stringConstant?_eq]

theorem indexedTableName?_eq (h : p.AgreeUpTo q lastPc) (pc : Nat) (i : Instruction) :
    p.indexedTableName? pc i = q.indexedTableName? pc i := by
  rw [indexedTableName?, indexedTableName?, h.upvalues, h.localName?_eq]

/-- The extra word of a load lies no further than the point of interest. -/
theorem loadedConstant?_eq (h : p.AgreeUpTo q lastPc) (hpc : pc < lastPc) (i : Instruction) :
    p.loadedConstant? pc i = q.loadedConstant? pc i := by
  rw [loadedConstant?, loadedConstant?, h.code (pc + 1) hpc]

theorem nameOfWrite_eq (h : p.AgreeUpTo q lastPc) (hpc : pc < lastPc)
    (f : Nat → Option SymbolicName) (i : Instruction) :
    p.nameOfWrite f pc i = q.nameOfWrite f pc i := by
  rw [nameOfWrite, nameOfWrite, h.keyName_eq, h.indexedTableName?_eq, h.loadedConstant?_eq hpc,
    upvalueName?, upvalueName?, h.upvalues]
  simp only [h.stringConstant?_eq]

/-! ## Names -/

/-- A question is answered alike when the nested questions are, at earlier instructions. -/
theorem nameStep_eq (h : p.AgreeUpTo q lastPc) {ask ask' : Nat → Nat → Option SymbolicName}
    (hask : ∀ pc < lastPc, ask pc = ask' pc) :
    p.nameStep ask lastPc reg = q.nameStep ask' lastPc reg := by
  rw [nameStep, nameStep, h.localName?_eq, h.lastWriter?_eq]
  cases q.localName? (reg + 1) lastPc with
  | some name => rfl
  | none =>
    cases hw : q.lastWriter? lastPc reg with
    | none => rfl
    | some pc =>
      have hpc := (lastWriter?_lt hw).1
      simp only [Option.bind_eq_bind, Option.bind_some, h.code pc (Nat.le_of_lt hpc),
        hask pc hpc, h.nameOfWrite_eq hpc]

theorem nameWithin_eq (h : p.AgreeUpTo q lastPc) (bound reg : Nat) :
    p.nameWithin bound lastPc reg = q.nameWithin bound lastPc reg := by
  induction bound generalizing lastPc reg with
  | zero =>
    rw [nameWithin, nameWithin, h.localName?_eq]
  | succ bound ih =>
    rw [nameWithin_succ, nameWithin_succ]
    apply h.nameStep_eq
    intro pc hpc
    funext r
    exact ih (h.mono (Nat.le_of_lt hpc)) r

theorem resolve_eq (h : p.AgreeUpTo q lastPc) (reg : Nat) :
    p.resolve lastPc reg = q.resolve lastPc reg := by
  induction lastPc using Nat.strongRecOn generalizing reg with
  | ind lastPc ih =>
    rw [Prototype.resolve_eq, Prototype.resolve_eq]
    apply h.nameStep_eq
    intro pc hpc
    funext r
    exact ih pc hpc (h.mono (Nat.le_of_lt hpc)) r

end AgreeUpTo

/-- Prototypes that agree up to an instruction give the same name to every register there
and to the function that the instruction calls, with the bound on nested questions and
without it. -/
theorem later_code_names_nothing (h : p.AgreeUpTo q pc) :
    p.calleeName? pc = q.calleeName? pc ∧
      ∀ reg, p.registerName? pc reg = q.registerName? pc reg ∧
        p.resolve pc reg = q.resolve pc reg := by
  have hregister : ∀ reg, p.registerName? pc reg = q.registerName? pc reg :=
    fun reg => h.nameWithin_eq nestingBound reg
  refine ⟨?_, fun reg => ⟨hregister reg, h.resolve_eq reg⟩⟩
  rw [calleeName?, calleeName?, h.code pc (Nat.le_refl pc)]
  simp only [hregister]

/-- Code that jumps over a move and loads a constant, whose index is in the word at 3, and
then goes on. -/
def loadedThen (rest : List Instruction) : Prototype where
  source := none
  lineDefined := 0
  lastLineDefined := 0
  paramCount := 0
  isVararg := false
  windowSize := 2
  code := (.ofASignedBx .jmp 0 1 :: .ofABC .move 0 1 0 :: .ofABx .loadKX 0 0 ::
    .ofAx .extraArg 0 :: rest).toArray
  lines := #[]
  constants := #[.string "x"]
  locals := []
  upvalues := #[]

/-- The load reads as far as the point of interest, and the jump lands before it; a return
after it or a jump back and a word that is no instruction make no difference. -/
theorem loaded_name_ignores_rest :
    let p := loadedThen [.ofABC .ret 0 1 0]
    let q := loadedThen [.ofASignedBx .jmp 0 (-3), ⟨0xFFFFFFFF⟩]
    p.AgreeUpTo q 3 ∧ p.code ≠ q.code ∧ p.registerName? 3 0 = some ⟨"x", .constant⟩ ∧
      q.registerName? 3 0 = some ⟨"x", .constant⟩ := by
  intro p q
  have hagree : p.AgreeUpTo q 3 :=
    { constants := rfl
      upvalues := rfl
      locals := rfl
      code := by decide
      left_size := by decide
      right_size := by decide }
  have hname : p.registerName? 3 0 = some ⟨"x", .constant⟩ := by
    have hfound : p.boundedChecked (nestingBound + 1) 0 3 0 = some (p.registerName? 3 0) :=
      boundedChecked_eq (by decide) (Nat.zero_add _) (Nat.lt_succ_self _) (by decide)
    rw [← Option.some_inj, ← hfound]
    decide +kernel
  have hsame := ((later_code_names_nothing hagree).2 0).1
  exact ⟨hagree, by decide, hname, hsame ▸ hname⟩

end Prototype

end ScriptDebug
