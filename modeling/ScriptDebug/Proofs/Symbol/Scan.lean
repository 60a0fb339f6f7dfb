import ScriptDebug.Proofs.Symbol.Path

/-!
# The last writer on the path

Which instruction last wrote a register is a matter of two rules: where reading the code
goes after an instruction, and which registers an instruction may write.  The rules
determine one path to every point of interest, and the scan finds the last instruction on
it that may write the register.

## Implementation notes

The rules are stated for the numbers of an instruction, one constructor for each kind of
instruction.  That each of them describes one step of the scan carries over to whole
paths by induction on the path.
-/

namespace ScriptDebug

/-- The opcodes whose instructions set their `A` register. -/
def Opcode.settersOfA : List Opcode :=
  [move, loadK, loadKX, loadBool, loadNil, getUpval, getTabUp, getTable, newTable, self,
    add, sub, mul, div, mod, pow, unm, not, len, concat, testSet, call, tailCall,
    forLoop, forPrep, tforLoop, closure, vararg]

theorem Opcode.assignsA_iff {op : Opcode} : op.assignsA = true ↔ op ∈ settersOfA := by
  cases op <;> decide

namespace Instruction

/-- The instruction may write register `reg`. -/
inductive MayWrite (i : Instruction) (reg : Nat) : Prop
  | nils (hop : i.opcode? = some .loadNil) (hlow : i.a ≤ reg) (hhigh : reg ≤ i.a + i.b)
  | iteration (hop : i.opcode? = some .tforCall) (hlow : i.a + 2 ≤ reg)
  | call (hop : i.opcode? = some .call ∨ i.opcode? = some .tailCall) (hlow : i.a ≤ reg)
  | test (hop : i.opcode? = some .test) (ha : reg = i.a)
  | single {op : Opcode} (hop : i.opcode? = some op)
      (hother : op ∉ [.loadNil, .tforCall, .call, .tailCall, .test])
      (hassigns : op ∈ Opcode.settersOfA) (ha : reg = i.a)

/-- The jump at `pc` goes to `target`, which lies ahead and not past `limit`. -/
structure JumpsAhead (i : Instruction) (limit pc target : Nat) : Prop where
  opcode : i.opcode? = some .jmp
  offset : (target : Int) = pc + 1 + i.signedBx
  ahead : pc < target
  within : target ≤ limit

/-- Reading goes on from the instruction at `pc` to another one: where a jump ahead goes,
past the count of a list, and to the next instruction from all others. -/
inductive LeadsTo (i : Instruction) (limit pc : Nat) : Nat → Prop
  | jump {target : Nat} (h : i.JumpsAhead limit pc target) : i.LeadsTo limit pc target
  | pastCount (hop : i.opcode? = some .setList) (hc : i.c = 0) : i.LeadsTo limit pc (pc + 2)
  | onward (hjump : ∀ target, ¬ i.JumpsAhead limit pc target)
      (hcount : ¬ (i.opcode? = some .setList ∧ i.c = 0)) : i.LeadsTo limit pc (pc + 1)

variable {i : Instruction} {limit pc reg x y : Nat}

theorem writes_iff_mayWrite : i.writes reg = true ↔ i.MayWrite reg := by
  constructor
  · intro h
    unfold writes at h
    split at h
    · cases h
    · next hop =>
      obtain ⟨hlow, hhigh⟩ := Bool.and_eq_true_iff.mp h
      exact .nils hop (of_decide_eq_true hlow) (of_decide_eq_true hhigh)
    · next hop => exact .iteration hop (of_decide_eq_true h)
    · next hop => exact .call (.inl hop) (of_decide_eq_true h)
    · next hop => exact .call (.inr hop) (of_decide_eq_true h)
    · next hop => exact .test hop (beq_iff_eq.mp h)
    · next op hnil hfor hcall htail htest hop =>
      obtain ⟨hassigns, ha⟩ := Bool.and_eq_true_iff.mp h
      refine .single hop ?_ (Opcode.assignsA_iff.mp hassigns) (beq_iff_eq.mp ha)
      simp only [List.mem_cons, List.not_mem_nil, or_false]
      rintro (rfl | rfl | rfl | rfl | rfl)
      · exact hnil rfl
      · exact hfor rfl
      · exact hcall rfl
      · exact htail rfl
      · exact htest rfl
  · intro h
    cases h with
    | nils hop hlow hhigh => simp [writes, hop, hlow, hhigh]
    | iteration hop hlow => simp [writes, hop, hlow]
    | call hop hlow =>
      obtain hop | hop := hop
      · simp [writes, hop, hlow]
      · simp [writes, hop, hlow]
    | test hop ha => simp [writes, hop, ha]
    | @single op hop hother hassigns ha =>
      have htable : op.assignsA = true := Opcode.assignsA_iff.mpr hassigns
      cases op with
      | loadNil | tforCall | call | tailCall | test => exact absurd (by simp) hother
      | _ => simp [writes, hop, htable, ha]

theorem jumpsAhead_iff (hop : i.opcode? = some .jmp) {target : Nat} :
    i.JumpsAhead limit pc target ↔ ((pc : Int) < pc + 1 + i.signedBx ∧
      pc + 1 + i.signedBx ≤ limit) ∧ target = (pc + 1 + i.signedBx).toNat := by
  constructor
  · rintro ⟨-, hoffset, hahead, hwithin⟩
    omega
  · rintro ⟨⟨hahead, hwithin⟩, rfl⟩
    exact ⟨hop, by omega, by omega, by omega⟩

/-- The scan follows the rule. -/
theorem leadsTo_next (i : Instruction) (limit pc : Nat) : i.LeadsTo limit pc (i.next limit pc) := by
  unfold next
  split
  · next hop =>
    dsimp only
    split
    · next htaken => exact .jump ((jumpsAhead_iff hop).mpr ⟨htaken, rfl⟩)
    · next hnot =>
      exact .onward (fun _ hjump => hnot ((jumpsAhead_iff hop).mp hjump).1) (by simp [hop])
  · next hop =>
    split
    · next hc => exact .pastCount hop hc
    · next hc =>
      refine .onward (fun _ hjump => ?_) fun h => hc h.2
      cases hop.symm.trans hjump.opcode
  · next hjmp hset => exact .onward (fun _ hjump => hjmp hjump.opcode) fun h => hset h.1

/-- The rule leaves no choice. -/
theorem LeadsTo.unique (h : i.LeadsTo limit pc x) (h' : i.LeadsTo limit pc y) : x = y := by
  cases h with
  | jump hjump =>
    cases h' with
    | jump hjump' =>
      have hoffset := hjump.offset
      have hoffset' := hjump'.offset
      omega
    | pastCount hop' hc' => cases hjump.opcode.symm.trans hop'
    | onward hjump' hcount' => exact absurd hjump (hjump' x)
  | pastCount hop hc =>
    cases h' with
    | jump hjump' => cases hjump'.opcode.symm.trans hop
    | pastCount hop' hc' => rfl
    | onward hjump' hcount' => exact absurd ⟨hop, hc⟩ hcount'
  | onward hjump hcount =>
    cases h' with
    | jump hjump' => exact absurd hjump' (hjump y)
    | pastCount hop' hc' => exact absurd ⟨hop', hc'⟩ hcount
    | onward hjump' hcount' => rfl

theorem leadsTo_iff : i.LeadsTo limit pc x ↔ x = i.next limit pc := by
  constructor
  · intro h
    exact h.unique (i.leadsTo_next limit pc)
  · rintro rfl
    exact i.leadsTo_next limit pc

theorem LeadsTo.lt (h : i.LeadsTo limit pc x) : pc < x :=
  leadsTo_iff.mp h ▸ i.lt_next limit pc

end Instruction

namespace Prototype

/-- Reading the code on from `pc` visits the instructions of a path before it comes to
`limit`. -/
inductive Reads (p : Prototype) (limit : Nat) : Nat → List Nat → Prop
  | done {pc : Nat} (h : limit ≤ pc) : p.Reads limit pc []
  | step {pc next : Nat} {i : Instruction} {path : List Nat} (hpc : pc < limit)
      (hcode : p.code[pc]? = some i) (hnext : i.LeadsTo limit pc next)
      (h : p.Reads limit next path) : p.Reads limit pc (pc :: path)

/-- The instruction at `pc` may write register `reg`. -/
def MayWriteAt (p : Prototype) (reg pc : Nat) : Prop :=
  ∃ i, p.code[pc]? = some i ∧ i.MayWrite reg

variable {p : Prototype} {limit pc reg x y z : Nat} {path : List Nat}

theorem writesAt_iff : p.writesAt reg pc = true ↔ p.MayWriteAt reg pc := by
  rw [writesAt, Option.any_eq_true]
  simp only [MayWriteAt, Instruction.writes_iff_mayWrite]

/-! ## The path -/

/-- The rules determine the path that the scan follows. -/
theorem reads_iff (h : limit ≤ p.code.size) : p.Reads limit pc path ↔ path = p.pathFrom limit h pc := by
  constructor
  · intro hpath
    induction hpath with
    | done hle => exact (pathFrom_of_le hle).symm
    | @step pc next i path hpc hcode hnext _ ih =>
      obtain ⟨_, rfl⟩ := Array.getElem?_eq_some_iff.mp hcode
      rw [pathFrom_of_lt hpc, ih, Instruction.leadsTo_iff.mp hnext]
  · rintro rfl
    fun_induction pathFrom p limit h pc with
    | case1 pc hpc hcode hnext ih =>
      exact .step hpc (Array.getElem?_eq_getElem hcode) (Instruction.leadsTo_next _ _ _) ih
    | case2 pc hpc => exact .done (Nat.not_lt.mp hpc)

theorem Reads.le_of_mem (h : p.Reads limit pc path) (hx : x ∈ path) : pc ≤ x := by
  induction h with
  | done hle => cases hx
  | step hpc hcode hnext _ ih =>
    have hlt := hnext.lt
    obtain rfl | hx := List.mem_cons.mp hx
    · exact Nat.le_refl _
    · have := ih hx
      omega

/-- What lies between an instruction on the path and where reading goes on is not read. -/
theorem Reads.not_mem_between {i : Instruction} (h : p.Reads limit pc path) (hx : x ∈ path)
    (hcode : p.code[x]? = some i) (hnext : i.LeadsTo limit x y) (hlow : x < z) (hhigh : z < y) :
    z ∉ path := by
  induction h with
  | done hle => cases hx
  | @step pc next i' path hpc hcode' hnext' hpath ih =>
    intro hz
    obtain rfl | hx := List.mem_cons.mp hx
    · obtain rfl := Option.some.inj (hcode'.symm.trans hcode)
      obtain rfl := hnext.unique hnext'
      obtain rfl | hz := List.mem_cons.mp hz
      · exact Nat.lt_irrefl _ hlow
      · have := hpath.le_of_mem hz
        omega
    · have hlt := hnext'.lt
      have hle := hpath.le_of_mem hx
      obtain rfl | hz := List.mem_cons.mp hz
      · omega
      · exact ih hx hz

/-- The scan for a register finds the last instruction that may write it on the one path
that reading takes to the point of interest.  The path only goes forward, and what it
passes over, behind a jump or as the count of a list, is never found. -/
theorem last_writer_on_path (p : Prototype) (lastPc reg : Nat) :
    let limit := min lastPc p.code.size
    ∃ path, (∀ path', p.Reads limit 0 path' ↔ path' = path) ∧
      path.Pairwise (· < ·) ∧
      (∀ w, p.lastWriter? lastPc reg = some w ↔
        (w ∈ path ∧ p.MayWriteAt reg w) ∧ ∀ x ∈ path, p.MayWriteAt reg x → x ≤ w) ∧
      (p.lastWriter? lastPc reg = none ↔ ∀ x ∈ path, ¬ p.MayWriteAt reg x) ∧
      ∀ x i next z, x ∈ path → p.code[x]? = some i → i.LeadsTo limit x next →
        x < z → z < next → z ∉ path ∧ p.lastWriter? lastPc reg ≠ some z := by
  intro limit
  have hpath : p.Reads limit 0 (p.pathTo lastPc) := (reads_iff (p.min_le_size lastPc)).mpr rfl
  refine ⟨p.pathTo lastPc, fun path' => reads_iff (p.min_le_size lastPc),
    p.pairwise_lt_pathTo lastPc, fun w => ?_, ?_, ?_⟩
  · rw [lastWriter?_eq_some_iff]
    simp only [writesAt_iff]
  · rw [lastWriter?_eq_none_iff]
    simp only [← writesAt_iff, Bool.not_eq_true]
  · intro x i next z hx hcode hnext hlow hhigh
    have hz : z ∉ p.pathTo lastPc := hpath.not_mem_between hx hcode hnext hlow hhigh
    exact ⟨hz, fun hw => hz (lastWriter?_eq_some_iff.mp hw).1.1⟩

end Prototype

end ScriptDebug
