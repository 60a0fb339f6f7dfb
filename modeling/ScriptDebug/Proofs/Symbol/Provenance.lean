import ScriptDebug.Proofs.Bytecode.Scopes
import ScriptDebug.Proofs.Symbol.Bound
import ScriptDebug.Proofs.Symbol.Safety

/-!
# Where names come from

A name that is found for a register is one that the prototype has: of a local variable in
scope, of an upvalue, or the text of a string constant.  Where the prototype has none, the
name is unknown and only the kind is told.  The kind is a matter of the instruction that
defined the value, from which moves to higher registers brought it.

## Implementation notes

Moves go up, so both the register and the instruction descend on the way back to the
definition.  Of the names of keys only constants count, and these are never found under a
key of their own, so no induction over keys is needed.
-/

namespace ScriptDebug

namespace Prototype

/-- The value of register `reg` just before `lastPc` was defined by `i` at `pc`, and has
been moved up the registers since. -/
inductive DefinedBy (p : Prototype) : Nat → Nat → Nat → Instruction → Prop
  | writer {lastPc reg pc i} (hw : p.WrittenBy lastPc reg pc i)
      (hmove : i.opcode? = some .move → i.a ≤ i.b) : p.DefinedBy lastPc reg pc i
  | moved {lastPc reg mid m pc i} (hw : p.WrittenBy lastPc reg mid m)
      (hop : m.opcode? = some .move) (hlt : m.b < m.a) (h : p.DefinedBy mid m.b pc i) :
      p.DefinedBy lastPc reg pc i

/-- The instruction at `pc` reads the global variables: from the upvalue or from a local
variable of their name. -/
inductive ReadsGlobals (p : Prototype) (pc : Nat) (i : Instruction) : Prop
  | upvalue (hop : i.opcode? = some .getTabUp)
      (htable : p.upvalues[i.b]? = some (some environmentName)) : p.ReadsGlobals pc i
  | localVariable (hop : i.opcode? = some .getTable)
      (htable : p.localName? (i.b + 1) pc = some environmentName) : p.ReadsGlobals pc i

/-- What a name can be traced back to: a local variable at an earlier instruction and of a
lower register, or what the defining instruction says. -/
inductive TracedTo (p : Prototype) (lastPc reg : Nat) : SymbolicName → Prop
  | localVariable {pc r name} (hpc : pc ≤ lastPc) (hr : r ≤ reg)
      (hname : p.localName? (r + 1) pc = some name) : p.TracedTo lastPc reg ⟨name, .localVariable⟩
  | upvalue {pc i name} (hdef : p.DefinedBy lastPc reg pc i)
      (hname : some name ∈ p.upvalues ∨ name = unknownName) :
      p.TracedTo lastPc reg ⟨name, .upvalue⟩
  | constant {pc i name} (hdef : p.DefinedBy lastPc reg pc i)
      (hname : .string name ∈ p.constants) : p.TracedTo lastPc reg ⟨name, .constant⟩
  | key {pc i kind name} (hdef : p.DefinedBy lastPc reg pc i) (hl : p.Lookup pc i kind)
      (hname : name = unknownName ∨ .string name ∈ p.constants) :
      p.TracedTo lastPc reg ⟨name, kind⟩

variable {p : Prototype} {lastPc reg pc k c bound : Nat} {i : Instruction} {kind : NameKind}
  {n : SymbolicName} {name : String} {f : Nat → Option SymbolicName}

/-! ## Names that a prototype has -/

theorem mem_constants_of_stringConstant? (h : p.stringConstant? k = some name) :
    .string name ∈ p.constants := by
  obtain ⟨constant, hconstant, hstring⟩ := Option.bind_eq_some_iff.mp h
  cases constant with
  | string s =>
    cases hstring
    exact Array.mem_of_getElem? hconstant
  | _ => cases hstring

theorem mem_upvalues_of_upvalueName? (h : p.upvalueName? k = some name) :
    some name ∈ p.upvalues :=
  Array.mem_of_getElem? (Option.join_eq_some_iff.mp h)

theorem lookup_global_iff : p.Lookup pc i .global ↔ p.ReadsGlobals pc i := by
  constructor
  · intro h
    cases h with
    | inGlobals hop htable => exact .upvalue hop htable
    | inLocalGlobals hop htable => exact .localVariable hop htable
  · intro h
    cases h with
    | upvalue hop htable => exact .inGlobals hop htable
    | localVariable hop htable => exact .inLocalGlobals hop htable

theorem Lookup.kind_mem (h : p.Lookup pc i kind) : kind ∈ [.global, .field, .method] := by
  cases h <;> simp

/-! ## The way back to the definition -/

/-- A name that is found is that of a local variable, at an earlier instruction and of a
lower register, or the value was defined by an instruction. -/
theorem origin_of_nameWithin (h : p.nameWithin bound lastPc reg = some n) :
    (n.kind = .localVariable ∧ ∃ pc ≤ lastPc, ∃ r ≤ reg, p.localName? (r + 1) pc = some n.name) ∨
      ∃ pc i, p.DefinedBy lastPc reg pc i := by
  induction bound generalizing lastPc reg with
  | zero =>
    unfold nameWithin at h
    split at h
    · next name hl =>
      cases h
      exact .inl ⟨rfl, lastPc, Nat.le_refl _, reg, Nat.le_refl _, hl⟩
    · cases h
  | succ bound ih =>
    cases hl : p.localName? (reg + 1) lastPc with
    | some name =>
      rw [nameWithin_of_named hl] at h
      cases h
      exact .inl ⟨rfl, lastPc, Nat.le_refl _, reg, Nat.le_refl _, hl⟩
    | none =>
      cases hwriter : p.lastWriter? lastPc reg with
      | none =>
        rw [nameWithin_of_unwritten hl hwriter] at h
        cases h
      | some mid =>
        obtain ⟨m, hw⟩ := writtenBy_of_lastWriter? hl hwriter
        by_cases hmove : m.opcode? = some .move ∧ m.b < m.a
        · obtain ⟨hop, hlt⟩ := hmove
          have hreg : reg = m.a := (writes_iff_of_move hop).mp hw.writes
          rw [hw.nameWithin_succ, nameOfWrite_of_move hop hlt] at h
          obtain ⟨hkind, pc, hpc, r, hr, hname⟩ | ⟨pc, i, hdef⟩ := ih h
          · have hmid := hw.lt
            exact .inl ⟨hkind, pc, by omega, r, by omega, hname⟩
          · exact .inr ⟨pc, i, .moved hw hop hlt hdef⟩
        · refine .inr ⟨mid, m, .writer hw fun hop => ?_⟩
          exact Nat.not_lt.mp fun hlt => hmove ⟨hop, hlt⟩

/-- Moves bring what the defining instruction says, or nothing. -/
theorem DefinedBy.nameOfWrite_eq (h : p.DefinedBy lastPc reg pc i)
    (hn : p.nameWithin bound lastPc reg = some n) :
    ∃ bound', p.nameOfWrite (p.nameWithin bound' pc) pc i = some n := by
  induction h generalizing bound with
  | writer hw hmove =>
    cases bound with
    | zero => cases hw.nameWithin_zero.symm.trans hn
    | succ bound => exact ⟨bound, hw.nameWithin_succ bound ▸ hn⟩
  | moved hw hop hlt _ ih =>
    cases bound with
    | zero => cases hw.nameWithin_zero.symm.trans hn
    | succ bound =>
      rw [hw.nameWithin_succ, nameOfWrite_of_move hop hlt] at hn
      exact ih hn

/-- A defining instruction reads under a key or speaks for itself. -/
theorem DefinedBy.lookup_or_plain (h : p.DefinedBy lastPc reg pc i) :
    (∃ kind, p.Lookup pc i kind) ∨ ∃ a, p.Plain pc i a := by
  induction h with
  | @writer lastPc reg pc i hw hmove =>
    obtain ⟨hop, hlt⟩ | hlookup | hplain := p.writer_cases pc i
    · exact absurd (hmove hop) (Nat.not_le.mpr hlt)
    · exact .inl hlookup
    · exact .inr hplain
  | moved hw hop hlt _ ih => exact ih

/-- A defining instruction names the value under a key or by itself. -/
theorem DefinedBy.name_cases (h : p.DefinedBy lastPc reg pc i)
    (hn : p.nameWithin bound lastPc reg = some n) :
    (p.Lookup pc i n.kind ∧ ∃ bound', n.name = p.keyName (p.nameWithin bound' pc) i.c) ∨
      p.Plain pc i (some n) := by
  obtain ⟨bound', htold⟩ := h.nameOfWrite_eq hn
  obtain ⟨kind, hlookup⟩ | ⟨a, hplain⟩ := h.lookup_or_plain
  · rw [nameOfWrite_of_lookup hlookup] at htold
    cases htold
    exact .inl ⟨hlookup, bound', rfl⟩
  · rw [nameOfWrite_of_plain hplain] at htold
    exact .inr (htold ▸ hplain)

/-! ## What names can be traced back to -/

/-- What a defining instruction says by itself is the name of an upvalue or a constant. -/
theorem DefinedBy.tracedTo_of_plain (hdef : p.DefinedBy lastPc reg pc i)
    (h : p.Plain pc i (some n)) :
    p.TracedTo lastPc reg n := by
  generalize ha : some n = a at h
  cases h with
  | upvalue hop =>
    cases ha
    refine .upvalue hdef ?_
    cases hname : p.upvalueName? i.b with
    | none => exact .inr rfl
    | some name => exact .inl (mem_upvalues_of_upvalueName? hname)
  | constant hop =>
    obtain ⟨s, hs, rfl⟩ := Option.map_eq_some_iff.mp ha.symm
    exact .constant hdef (mem_constants_of_stringConstant? hs)
  | constantAfter hop =>
    obtain ⟨x, -, hx⟩ := Option.bind_eq_some_iff.mp ha.symm
    obtain ⟨s, hs, rfl⟩ := Option.map_eq_some_iff.mp hx
    exact .constant hdef (mem_constants_of_stringConstant? hs)
  | moveDown hop hle => cases ha
  | other hop => cases ha

/-- A key is unknown or in the pool, if the constants that registers are named after are. -/
theorem keyName_cases (hf : ∀ key, f c = some ⟨key, .constant⟩ → .string key ∈ p.constants) :
    p.keyName f c = unknownName ∨ .string (p.keyName f c) ∈ p.constants := by
  cases hc : KeyOperand.isConstant c with
  | true =>
    rw [keyName_of_constant hc]
    cases hk : p.stringConstant? (KeyOperand.constantIndex c) with
    | none => exact .inl rfl
    | some s => exact .inr (mem_constants_of_stringConstant? hk)
  | false =>
    by_cases hloaded : ∃ key, f c = some ⟨key, .constant⟩
    · obtain ⟨key, hkey⟩ := hloaded
      rw [keyName_of_loaded hc hkey]
      exact .inr (hf key hkey)
    · exact .inl (keyName_of_unloaded hc fun key hkey => hloaded ⟨key, hkey⟩)

/-- A register is named after a constant only if the constant is in the pool. -/
theorem mem_constants_of_nameWithin (h : p.nameWithin bound lastPc reg = some ⟨name, .constant⟩) :
    .string name ∈ p.constants := by
  obtain ⟨hkind, -⟩ | ⟨pc, i, hdef⟩ := origin_of_nameWithin h
  · cases hkind
  · obtain ⟨hlookup, -⟩ | hplain := hdef.name_cases h
    · exact absurd rfl hlookup.ne_constant
    · cases hdef.tracedTo_of_plain hplain with
      | constant _ hname => exact hname
      | key _ hlookup _ => exact absurd rfl hlookup.ne_constant

/-- Every name that is found can be traced back. -/
theorem tracedTo_of_nameWithin (h : p.nameWithin bound lastPc reg = some n) :
    p.TracedTo lastPc reg n := by
  obtain ⟨hkind, pc, hpc, r, hr, hname⟩ | ⟨pc, i, hdef⟩ := origin_of_nameWithin h
  · obtain ⟨name, kind⟩ := n
    subst hkind
    exact .localVariable hpc hr hname
  · obtain ⟨hlookup, bound', hkey⟩ | hplain := hdef.name_cases h
    · refine .key hdef hlookup ?_
      rw [hkey]
      exact keyName_cases fun key => mem_constants_of_nameWithin
    · exact hdef.tracedTo_of_plain hplain

/-- A name that is found has one of six kinds.  A local variable is in scope at the point of
interest or before, and its place among those in scope is the register or a lower one.  A
constant is in the pool; an upvalue is declared, and the key of a global, a field or a method
is in the pool, unless they are unknown.  All but local variables were defined by an
instruction, and a name is global exactly if that instruction reads the global variables. -/
theorem found_name_provenance (h : p.registerName? pc reg = some ⟨name, kind⟩) :
    kind ∈ [.localVariable, .global, .field, .method, .upvalue, .constant] ∧
    (kind = .localVariable → ∃ pc' ≤ pc, ∃ r ≤ reg, ∃ v,
      (p.localsInScope pc')[r]? = some v ∧ v.name = name) ∧
    (kind = .constant → .string name ∈ p.constants) ∧
    (kind = .upvalue → some name ∈ p.upvalues ∨ name = unknownName) ∧
    (kind ∈ [.global, .field, .method] → name = unknownName ∨ .string name ∈ p.constants) ∧
    (kind ≠ .localVariable → ∃ pc' i, p.DefinedBy pc reg pc' i) ∧
    (kind = .global ↔ ∃ pc' i, p.DefinedBy pc reg pc' i ∧ p.ReadsGlobals pc' i) := by
  have hglobal : (∃ pc' i, p.DefinedBy pc reg pc' i ∧ p.ReadsGlobals pc' i) → kind = .global := by
    rintro ⟨pc', i, hdef, hreads⟩
    obtain ⟨bound, htold⟩ := hdef.nameOfWrite_eq h
    rw [nameOfWrite_of_lookup (lookup_global_iff.mpr hreads)] at htold
    cases htold
    rfl
  cases tracedTo_of_nameWithin h with
  | @localVariable pc' r _ hpc hr hname =>
    exact ⟨by simp, fun _ => ⟨pc', hpc, r, hr, exists_inScope_of_localName? hname⟩, nofun, nofun,
      by simp, by simp, nofun, hglobal⟩
  | @upvalue pc' i _ hdef hname =>
    exact ⟨by simp, nofun, nofun, fun _ => hname, by simp, fun _ => ⟨pc', i, hdef⟩, nofun, hglobal⟩
  | @constant pc' i _ hdef hname =>
    exact ⟨by simp, nofun, fun _ => hname, nofun, by simp, fun _ => ⟨pc', i, hdef⟩, nofun, hglobal⟩
  | @key pc' i _ _ hdef hlookup hname =>
    have hkind := hlookup.kind_mem
    simp only [List.mem_cons, List.not_mem_nil, or_false] at hkind
    obtain rfl | rfl | rfl := hkind
    · exact ⟨by simp, nofun, nofun, nofun, fun _ => hname, fun _ => ⟨pc', i, hdef⟩,
        fun _ => ⟨pc', i, hdef, lookup_global_iff.mp hlookup⟩, hglobal⟩
    · exact ⟨by simp, nofun, nofun, nofun, fun _ => hname, fun _ => ⟨pc', i, hdef⟩, nofun, hglobal⟩
    · exact ⟨by simp, nofun, nofun, nofun, fun _ => hname, fun _ => ⟨pc', i, hdef⟩, nofun, hglobal⟩

/-- Code that reads a field of the local variable in register 0, under a key from register 1,
and moves it up twice. -/
def movedGlobal : Prototype where
  source := none
  lineDefined := 0
  lastLineDefined := 0
  paramCount := 1
  isVararg := false
  windowSize := 5
  code := #[.ofABx .loadK 1 0, .ofABC .getTable 2 0 1, .ofABC .move 3 2 0, .ofABC .move 4 3 0]
  lines := #[]
  constants := #[.string "x"]
  locals := [⟨environmentName, 0, 4⟩]
  upvalues := #[]

/-- The value in the last register is a global variable since the local variable holds them. -/
theorem moved_global_provenance :
    movedGlobal.registerName? 4 4 = some ⟨"x", .global⟩ ∧
      (.string "x" ∈ movedGlobal.constants) ∧
      ∃ pc i, movedGlobal.DefinedBy 4 4 pc i ∧ movedGlobal.ReadsGlobals pc i := by
  have hname : movedGlobal.registerName? 4 4 = some ⟨"x", .global⟩ := by
    have hfound : movedGlobal.boundedChecked (nestingBound + 1) 0 4 4 =
        some (movedGlobal.registerName? 4 4) :=
      boundedChecked_eq (by decide) (Nat.zero_add _) (Nat.lt_succ_self _) (by decide)
    rw [← Option.some_inj, ← hfound]
    decide +kernel
  obtain ⟨-, -, -, -, hpool, -, hglobal⟩ := found_name_provenance hname
  refine ⟨hname, ?_, hglobal.mp rfl⟩
  exact (hpool (by decide)).resolve_left (by decide)

end Prototype

end ScriptDebug
