import ScriptDebug.Proofs.Symbol.Bound
import ScriptDebug.Proofs.Symbol.Safety
import ScriptDebug.Proofs.Symbol.Scan

/-!
# Assigned registers

Executing an instruction assigns registers, and the scan for the last writer should take it
for a writer of each of them.  It does so with two exceptions, the second register of a
method call and all varargs but the first.  There the scan goes on as if the instruction
were not there, and a register keeps the name of the value that was overwritten.

## Implementation notes

The way to an instruction on a path is the first part of that path, since a jump taken on
the path before it does not pass it.  So one instruction more adds itself to the path, and
whether the scan finds it is a matter of `Instruction.writes` alone.
-/

namespace ScriptDebug

namespace Instruction

/-- The registers that executing the instruction assigns, in order.  A call and an access to
the varargs assign as many as their operand asks for; those that leave the number open
assign none, nor do the instructions that are not executed. -/
def assigned (i : Instruction) : List Nat :=
  match i.opcode? with
  | some .move | some .loadK | some .loadBool | some .getUpval | some .getTabUp
  | some .getTable | some .add | some .sub | some .closure => [i.a]
  | some .loadNil => List.range' i.a (i.b + 1)
  | some .self => [i.a + 1, i.a]
  | some .call => List.range' i.a (i.c - 1)
  | some .vararg => List.range' i.a (i.b - 1)
  | _ => []

/-- The instruction assigns register `reg`, which the scan does not take it for a writer of:
the object of a method call, or a vararg after the first. -/
inductive Overlooks (i : Instruction) (reg : Nat) : Prop
  | object (hop : i.opcode? = some .self) (hreg : reg = i.a + 1)
  | vararg (hop : i.opcode? = some .vararg) (hlow : i.a < reg) (hhigh : reg < i.a + (i.b - 1))

variable {i : Instruction} {limit limit' pc reg x : Nat}

/-- The instructions that assign their `A` register as such are told by their opcode. -/
theorem writes_iff_of_assignsA {op : Opcode} (hop : i.opcode? = some op)
    (hassigns : op.assignsA = true) (hother : op ∉ [.loadNil, .call, .tailCall]) :
    i.writes reg = true ↔ reg = i.a := by
  have hwrites : i.writes reg = (reg == i.a) := by
    cases op with
    | loadNil | call | tailCall => exact absurd (by simp) hother
    | tforCall | test => cases hassigns
    | _ => simp_all [writes]
  rw [hwrites, beq_iff_eq]

theorem Overlooks.lt (h : i.Overlooks reg) : i.a < reg := by
  cases h with
  | object hop hreg => omega
  | vararg hop hlow hhigh => exact hlow

theorem Overlooks.opcode (h : i.Overlooks reg) :
    i.opcode? = some .self ∨ i.opcode? = some .vararg := by
  cases h with
  | object hop hreg => exact .inl hop
  | vararg hop hlow hhigh => exact .inr hop

theorem Overlooks.writes_eq_false (h : i.Overlooks reg) : i.writes reg = false := by
  have hlt := h.lt
  rw [Bool.eq_false_iff, ne_eq]
  obtain hop | hop := h.opcode
  · rw [writes_iff_of_assignsA hop rfl (by decide)]
    omega
  · rw [writes_iff_of_assignsA hop rfl (by decide)]
    omega

theorem Overlooks.mem_assigned (h : i.Overlooks reg) : reg ∈ i.assigned := by
  cases h with
  | object hop hreg => simp [assigned, hop, hreg]
  | vararg hop hlow hhigh =>
    simp only [assigned, hop, List.mem_range'_1]
    omega

/-- The scan takes an instruction for a writer of what it assigns, unless it overlooks it. -/
theorem writes_of_not_overlooks (h : reg ∈ i.assigned) (hseen : ¬ i.Overlooks reg) :
    i.writes reg = true := by
  cases hop : i.opcode? with
  | none => simp [assigned, hop] at h
  | some op =>
    cases op with
    | loadNil =>
      simp only [assigned, hop, List.mem_range'_1] at h
      simp only [writes, hop, Bool.and_eq_true, decide_eq_true_eq]
      omega
    | call =>
      simp only [assigned, hop, List.mem_range'_1] at h
      simp only [writes, hop, decide_eq_true_eq]
      exact h.1
    | self =>
      rw [writes_iff_of_assignsA hop rfl (by decide)]
      simp only [assigned, hop, List.mem_cons, List.not_mem_nil, or_false] at h
      exact h.resolve_left fun hreg => hseen (.object hop hreg)
    | vararg =>
      rw [writes_iff_of_assignsA hop rfl (by decide)]
      simp only [assigned, hop, List.mem_range'_1] at h
      obtain hlow | heq := Nat.lt_or_eq_of_le h.1
      · exact absurd (.vararg hop hlow h.2) hseen
      · exact heq.symm
    | move | loadK | loadBool | getUpval | getTabUp | getTable | add | sub | closure =>
      simp only [assigned, hop, List.mem_singleton] at h
      exact (writes_iff_of_assignsA hop rfl (by decide)).mpr h
    | _ => simp [assigned, hop] at h

/-- What is overlooked is assigned and yet not written for the scan. -/
theorem overlooks_iff : i.Overlooks reg ↔ reg ∈ i.assigned ∧ i.writes reg = false := by
  constructor
  · intro hover
    exact ⟨hover.mem_assigned, hover.writes_eq_false⟩
  · rintro ⟨hassigned, hmissed⟩
    refine Classical.byContradiction fun hseen => ?_
    cases hmissed.symm.trans (writes_of_not_overlooks hassigned hseen)

/-- Reading goes on alike when it must not pass a nearer point that it does not pass. -/
theorem LeadsTo.of_le (h : i.LeadsTo limit pc x) (hx : x ≤ limit') (hle : limit' ≤ limit) :
    i.LeadsTo limit' pc x := by
  cases h with
  | jump hjump => exact .jump { hjump with within := hx }
  | pastCount hop hc => exact .pastCount hop hc
  | onward hjump hcount =>
    refine .onward (fun target htarget => hjump target ?_) hcount
    exact { htarget with within := Nat.le_trans htarget.within hle }

end Instruction

namespace Prototype

variable {p : Prototype} {i : Instruction} {limit pc lastPc reg x : Nat} {path : List Nat}

/-! ## The way to an instruction on the path -/

theorem Reads.lt_limit (h : p.Reads limit pc path) (hx : x ∈ path) : x < limit := by
  induction h with
  | done hle => cases hx
  | step hpc hcode hnext hpath ih =>
    obtain rfl | hx := List.mem_cons.mp hx
    · exact hpc
    · exact ih hx

/-- A path goes to each of its instructions on the way that leads there, and on from it. -/
theorem Reads.split (h : p.Reads limit pc path) (hx : x ∈ path) :
    ∃ front back, path = front ++ x :: back ∧ p.Reads x pc front ∧ ∀ y ∈ back, x < y := by
  induction h with
  | done hle => cases hx
  | @step pc next i path hpc hcode hnext hpath ih =>
    obtain rfl | hx := List.mem_cons.mp hx
    · refine ⟨[], path, rfl, .done (Nat.le_refl _), fun y hy => ?_⟩
      exact Nat.lt_of_lt_of_le hnext.lt (hpath.le_of_mem hy)
    · obtain ⟨front, back, rfl, hfront, hback⟩ := ih hx
      have hle : next ≤ x := hpath.le_of_mem hx
      have hlimit : x ≤ limit := Nat.le_of_lt (hpath.lt_limit hx)
      refine ⟨pc :: front, back, rfl, .step ?_ hcode (hnext.of_le hle hlimit) hfront, hback⟩
      exact Nat.lt_of_lt_of_le hnext.lt hle

theorem pathTo_split (hx : x ∈ p.pathTo lastPc) :
    ∃ back, p.pathTo lastPc = p.pathTo x ++ x :: back ∧ ∀ y ∈ back, x < y := by
  have hpath : p.Reads (min lastPc p.code.size) 0 (p.pathTo lastPc) :=
    (reads_iff (p.min_le_size lastPc)).mpr rfl
  obtain ⟨front, back, heq, hfront, hback⟩ := hpath.split hx
  have hsize : min x p.code.size = x := Nat.min_eq_left (Nat.le_of_lt (bounds_of_mem_pathTo hx).2)
  have hsame : front = p.pathTo x := by
    apply (reads_iff (p.min_le_size x)).mp
    rwa [hsize]
  exact ⟨back, hsame ▸ heq, hback⟩

/-- An instruction on the way past it comes last on that way. -/
theorem pathTo_succ (hpath : pc ∈ p.pathTo (pc + 1)) : p.pathTo (pc + 1) = p.pathTo pc ++ [pc] := by
  obtain ⟨back, heq, hback⟩ := pathTo_split hpath
  cases back with
  | nil => exact heq
  | cons y back =>
    have hlow : pc < y := hback y List.mem_cons_self
    have hhigh : y < pc + 1 := (bounds_of_mem_pathTo (heq ▸ by simp : y ∈ p.pathTo (pc + 1))).1
    omega

/-! ## One instruction more -/

/-- What an instruction adds to the scan: itself, if it may write the register. -/
theorem lastWriter?_succ (hpath : pc ∈ p.pathTo (pc + 1)) (reg : Nat) :
    p.lastWriter? (pc + 1) reg = if p.writesAt reg pc then some pc else p.lastWriter? pc reg := by
  rw [lastWriter?_eq_getLast?, lastWriter?_eq_getLast?, pathTo_succ hpath, List.filter_append,
    List.filter_cons, List.filter_nil]
  cases p.writesAt reg pc with
  | true => rw [if_pos rfl, if_pos rfl, List.getLast?_concat]
  | false => rw [if_neg (by simp), if_neg (by simp), List.append_nil]

theorem writesAt_eq_writes (hcode : p.code[pc]? = some i) : p.writesAt reg pc = i.writes reg := by
  rw [writesAt, hcode]
  rfl

/-- The last writer does not lie before any writer on the path. -/
theorem exists_lastWriter?_of_writesAt (hx : x ∈ p.pathTo lastPc) (hw : p.writesAt reg x = true) :
    ∃ w, p.lastWriter? lastPc reg = some w ∧ x ≤ w := by
  cases hlast : p.lastWriter? lastPc reg with
  | none => cases hw.symm.trans (lastWriter?_eq_none_iff.mp hlast x hx)
  | some w => exact ⟨w, rfl, (lastWriter?_eq_some_iff.mp hlast).2 x hx hw⟩

/-- The name of an unnamed register is told from its last writer. -/
theorem registerName?_of_lastWriter? (hlocal : p.localName? (reg + 1) lastPc = none)
    (hw : p.lastWriter? lastPc reg = some pc) (hcode : p.code[pc]? = some i) :
    p.registerName? lastPc reg = p.nameOfWrite (p.nameWithin (nestingBound - 1) pc) pc i := by
  rw [registerName?, show nestingBound = nestingBound - 1 + 1 from rfl, nameWithin_succ]
  exact nameStep_of_written hlocal hw hcode

/-- The last writer is all that the point of interest matters for, in an unnamed register. -/
theorem registerName?_congr (hlocal : p.localName? (reg + 1) lastPc = none)
    (hlocal' : p.localName? (reg + 1) pc = none)
    (hw : p.lastWriter? lastPc reg = p.lastWriter? pc reg) :
    p.registerName? lastPc reg = p.registerName? pc reg := by
  rw [registerName?, registerName?, show nestingBound = nestingBound - 1 + 1 from rfl,
    nameWithin_succ, nameWithin_succ, nameStep, nameStep, hlocal, hlocal', hw]

/-- Right behind an instruction on the path, the scan finds that instruction as the last
writer of all that it assigns but what it overlooks, and a register without a local variable
is named after the value assigned.  An overlooked register has the last writer and the name
that it had before.  Further on, the scan comes back to what was overwritten as long as no
other instruction on the path may write the register.  In code without jumps and lists, all
instructions are on the path. -/
theorem found_iff_not_overlooked (hcode : p.code[pc]? = some i) (hpath : pc ∈ p.pathTo (pc + 1))
    (hassigned : reg ∈ i.assigned) :
    (p.lastWriter? (pc + 1) reg = some pc ↔ ¬ i.Overlooks reg) ∧
    (i.Overlooks reg → p.lastWriter? (pc + 1) reg = p.lastWriter? pc reg) ∧
    (p.localName? (reg + 1) (pc + 1) = none →
      (¬ i.Overlooks reg → p.registerName? (pc + 1) reg =
        p.nameOfWrite (p.nameWithin (nestingBound - 1) pc) pc i) ∧
      (i.Overlooks reg → p.localName? (reg + 1) pc = none →
        p.registerName? (pc + 1) reg = p.registerName? pc reg)) ∧
    (∀ lastPc, pc ∈ p.pathTo lastPc →
      ((∃ w, p.lastWriter? lastPc reg = some w ∧ pc ≤ w) ↔
        ¬ i.Overlooks reg ∨ ∃ x ∈ p.pathTo lastPc, pc < x ∧ p.MayWriteAt reg x)) ∧
    ((∀ j ∈ p.code, j.opcode? ≠ some .jmp ∧ j.opcode? ≠ some .setList) →
      ∀ x < p.code.size, x ∈ p.pathTo (x + 1)) := by
  have hwrites : p.writesAt reg pc = true ↔ ¬ i.Overlooks reg := by
    rw [writesAt_eq_writes hcode, Instruction.overlooks_iff, not_and, Bool.not_eq_false]
    exact ⟨fun hw _ => hw, fun hw => hw hassigned⟩
  have hfound : ¬ i.Overlooks reg → p.lastWriter? (pc + 1) reg = some pc := by
    intro hseen
    rw [lastWriter?_succ hpath, if_pos (hwrites.mpr hseen)]
  have hpassed : i.Overlooks reg → p.lastWriter? (pc + 1) reg = p.lastWriter? pc reg := by
    intro hover
    rw [lastWriter?_succ hpath, if_neg fun hw => hwrites.mp hw hover]
  refine ⟨⟨fun hlast hover => ?_, hfound⟩, hpassed, fun hlocal => ⟨fun hseen => ?_,
    fun hover hlocal' => ?_⟩, fun lastPc hmem => ⟨?_, ?_⟩, fun hstraight x hx => ?_⟩
  · -- The last writer for a point lies before that point.
    have hlt := (lastWriter?_lt ((hpassed hover).symm.trans hlast)).1
    exact Nat.lt_irrefl pc hlt
  · exact registerName?_of_lastWriter? hlocal (hfound hseen) hcode
  · exact registerName?_congr hlocal hlocal' (hpassed hover)
  · rintro ⟨w, hlast, hle⟩
    obtain ⟨hw, hwriter⟩ := (lastWriter?_eq_some_iff.mp hlast).1
    obtain hlt | rfl := Nat.lt_or_eq_of_le hle
    · exact .inr ⟨w, hw, hlt, writesAt_iff.mp hwriter⟩
    · exact .inl (hwrites.mp hwriter)
  · rintro (hseen | ⟨x, hx, hlt, hwriter⟩)
    · exact exists_lastWriter?_of_writesAt hmem (hwrites.mpr hseen)
    · obtain ⟨w, hlast, hle⟩ := exists_lastWriter?_of_writesAt hx (writesAt_iff.mpr hwriter)
      exact ⟨w, hlast, Nat.le_trans (Nat.le_of_lt hlt) hle⟩
  · exact mem_pathTo_of_straight hstraight (Nat.lt_succ_self x) hx

/-- Code that reads an upvalue into register `reg` and then executes an instruction. -/
def upvalueThen (reg : Nat) (i : Instruction) : Prototype where
  source := none
  lineDefined := 0
  lastLineDefined := 0
  paramCount := 1
  isVararg := true
  windowSize := 3
  code := #[.ofABC .getUpval reg 0 0, i]
  lines := #[]
  constants := #[.string "m"]
  locals := []
  upvalues := #[some "u"]

/-- The second of two varargs takes the place of the upvalue, which the scan still finds. -/
theorem second_vararg_overlooked :
    let i : Instruction := .ofABC .vararg 1 3 0
    let p := upvalueThen 2 i
    (p.code[1]? = some i ∧ 1 ∈ p.pathTo 2 ∧ 1 ∈ i.assigned ∧ 2 ∈ i.assigned) ∧
      p.lastWriter? 2 1 = some 1 ∧ p.lastWriter? 2 2 = p.lastWriter? 1 2 ∧
      p.registerName? 2 2 = p.registerName? 1 2 := by
  intro i p
  have hcode : p.code[1]? = some i := rfl
  have hpath : 1 ∈ p.pathTo 2 :=
    mem_pathTo_of_straight (by decide) (by decide) (by decide)
  have hassigned : 1 ∈ i.assigned ∧ 2 ∈ i.assigned := by decide
  have hseen : ¬ i.Overlooks 1 := fun hover => absurd hover.lt (by decide)
  have hover : i.Overlooks 2 := .vararg (by decide) (by decide) (by decide)
  obtain ⟨hfirst, -⟩ := found_iff_not_overlooked hcode hpath hassigned.1
  obtain ⟨-, hpassed, hname, -⟩ := found_iff_not_overlooked hcode hpath hassigned.2
  exact ⟨⟨hcode, hpath, hassigned⟩, hfirst.mpr hseen, hpassed hover,
    (hname rfl).2 hover rfl⟩

/-- Setting up a method call puts the object where the upvalue was, which the scan still finds
and the register is still named after. -/
theorem method_object_overlooked :
    let i : Instruction := .ofABC .self 1 0 (KeyOperand.ofConstant 0)
    let p := upvalueThen 2 i
    (p.code[1]? = some i ∧ 1 ∈ p.pathTo 2 ∧ 2 ∈ i.assigned) ∧
      p.lastWriter? 2 2 = some 0 ∧ p.lastWriter? 2 2 ≠ some 1 ∧
      p.registerName? 2 2 = some ⟨"u", .upvalue⟩ := by
  intro i p
  have hpath : 1 ∈ p.pathTo 2 :=
    mem_pathTo_of_straight (by decide) (by decide) (by decide)
  have hlast : p.lastWriter? 2 2 = some 0 := by
    rw [← Option.some_inj, ← lastWriterChecked_eq (by decide)]
    decide +kernel
  have hname : p.registerName? 2 2 = some ⟨"u", .upvalue⟩ :=
    registerName?_of_lastWriter? (i := .ofABC .getUpval 2 0 0) rfl hlast rfl
  exact ⟨⟨rfl, hpath, by decide⟩, hlast, by simp [hlast], hname⟩

end Prototype

end ScriptDebug
