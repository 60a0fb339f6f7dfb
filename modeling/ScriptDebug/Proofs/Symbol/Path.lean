import ScriptDebug.Symbol.Name

/-!
# The path to an instruction

The scan for the last writer of a register visits the instructions of one path, from the
first instruction to the point of interest.  The path is strictly increasing and stays in
the code, whatever the code is, and the last writer is its last instruction that may write
the register.

## Implementation notes

`pathFrom` follows the same steps as `scanWriters`, so the two agree by the induction
principle of either.
-/

namespace ScriptDebug

theorem Instruction.next_of_ne {i : Instruction} (hjmp : i.opcode? ≠ some .jmp)
    (hset : i.opcode? ≠ some .setList) (limit pc : Nat) : i.next limit pc = pc + 1 := by
  unfold next
  split
  · next hop => exact absurd hop hjmp
  · next hop => exact absurd hop hset
  · rfl

namespace Prototype

theorem lt_size {p : Prototype} {limit pc : Nat} (h : limit ≤ p.code.size) (hpc : pc < limit) :
    pc < p.code.size := Nat.lt_of_lt_of_le hpc h

theorem min_le_size (p : Prototype) (lastPc : Nat) : min lastPc p.code.size ≤ p.code.size :=
  Nat.min_le_right ..

/-- The instructions before `limit` that the scan visits from `pc` on. -/
def pathFrom (p : Prototype) (limit : Nat) (h : limit ≤ p.code.size) (pc : Nat) : List Nat :=
  if hpc : pc < limit then
    have hcode := lt_size h hpc
    have hnext := p.code[pc].lt_next limit pc
    pc :: p.pathFrom limit h (p.code[pc].next limit pc)
  else
    []
termination_by limit - pc

/-- The instructions that the scan for a point of interest visits, in order. -/
def pathTo (p : Prototype) (lastPc : Nat) : List Nat :=
  p.pathFrom (min lastPc p.code.size) (p.min_le_size lastPc) 0

/-- Whether there is an instruction at `pc` that may write register `reg`. -/
def writesAt (p : Prototype) (reg pc : Nat) : Bool := p.code[pc]?.any (·.writes reg)

variable {p : Prototype} {limit pc lastPc reg w : Nat} {h : limit ≤ p.code.size}

theorem pathFrom_of_lt (hpc : pc < limit) : p.pathFrom limit h pc =
    pc :: p.pathFrom limit h (p.code[pc].next limit pc) := by
  rw [pathFrom, dif_pos hpc]

theorem pathFrom_of_le (hpc : limit ≤ pc) : p.pathFrom limit h pc = [] := by
  rw [pathFrom, dif_neg (Nat.not_lt.mpr hpc)]

theorem writesAt_of_lt (hpc : pc < p.code.size) :
    p.writesAt reg pc = p.code[pc].writes reg := by
  simp [writesAt, hpc]

theorem bounds_of_mem_pathFrom {x : Nat} (hx : x ∈ p.pathFrom limit h pc) :
    pc ≤ x ∧ x < limit := by
  fun_induction pathFrom p limit h pc with
  | case1 pc hpc hcode hnext ih =>
    obtain rfl | hx := List.mem_cons.mp hx
    · exact ⟨Nat.le_refl _, hpc⟩
    · have := ih hx
      omega
  | case2 pc hpc => cases hx

theorem pairwise_lt_pathFrom : (p.pathFrom limit h pc).Pairwise (· < ·) := by
  fun_induction pathFrom p limit h pc with
  | case1 pc hpc hcode hnext ih =>
    refine List.pairwise_cons.mpr ⟨fun x hx => ?_, ih⟩
    have := (bounds_of_mem_pathFrom hx).1
    omega
  | case2 pc hpc => exact List.Pairwise.nil

/-- Code without jumps and counts is visited instruction by instruction. -/
theorem mem_pathFrom_of_straight
    (hstraight : ∀ i ∈ p.code, i.opcode? ≠ some .jmp ∧ i.opcode? ≠ some .setList) {x : Nat}
    (hpc : pc ≤ x) (hx : x < limit) : x ∈ p.pathFrom limit h pc := by
  fun_induction pathFrom p limit h pc with
  | case1 pc hlt hcode hnext ih =>
    obtain ⟨hjmp, hset⟩ := hstraight _ (Array.getElem_mem hcode)
    rw [Instruction.next_of_ne hjmp hset] at ih ⊢
    obtain rfl | hpc := Nat.eq_or_lt_of_le hpc
    · exact List.mem_cons_self
    · exact List.mem_cons_of_mem _ (ih hpc)
  | case2 pc hle => omega

/-- The scan ends with the last writer on its path, if there is one. -/
theorem scanWriters_eq_or (found : Option Nat) : p.scanWriters limit h reg pc found =
    ((p.pathFrom limit h pc).filter (p.writesAt reg)).getLast?.or found := by
  fun_induction scanWriters p limit h reg pc found with
  | case1 pc found hpc hcode hnext ih =>
    rw [dite_eq_ite] at ih
    rw [ih, pathFrom_of_lt hpc, List.filter_cons, writesAt_of_lt hcode]
    cases p.code[pc].writes reg with
    | false => rfl
    | true =>
      rw [if_pos rfl, if_pos rfl, List.getLast?_cons]
      cases ((p.pathFrom limit h _).filter (p.writesAt reg)).getLast? <;> rfl
  | case2 pc found hpc =>
    rw [pathFrom_of_le (Nat.not_lt.mp hpc)]
    rfl

/-! ## The path to a point of interest -/

theorem bounds_of_mem_pathTo {x : Nat} (hx : x ∈ p.pathTo lastPc) :
    x < lastPc ∧ x < p.code.size := by
  have := (bounds_of_mem_pathFrom hx).2
  omega

theorem mem_pathTo_of_straight
    (hstraight : ∀ i ∈ p.code, i.opcode? ≠ some .jmp ∧ i.opcode? ≠ some .setList) {x : Nat}
    (hlast : x < lastPc) (hcode : x < p.code.size) : x ∈ p.pathTo lastPc :=
  mem_pathFrom_of_straight hstraight (Nat.zero_le x) (Nat.lt_min.mpr ⟨hlast, hcode⟩)

/-- The scan moves strictly forward. -/
theorem pairwise_lt_pathTo (p : Prototype) (lastPc : Nat) :
    (p.pathTo lastPc).Pairwise (· < ·) := pairwise_lt_pathFrom

theorem lastWriter?_eq_getLast? (p : Prototype) (lastPc reg : Nat) :
    p.lastWriter? lastPc reg = ((p.pathTo lastPc).filter (p.writesAt reg)).getLast? := by
  rw [lastWriter?, scanWriters_eq_or, Option.or_none, pathTo]

/-- The last element of an increasing list is its largest. -/
theorem getLast?_eq_some_iff_of_pairwise {l : List Nat} (hl : l.Pairwise (· < ·)) :
    l.getLast? = some w ↔ w ∈ l ∧ ∀ x ∈ l, x ≤ w := by
  rw [List.getLast?_eq_some_iff]
  constructor
  · rintro ⟨l, rfl⟩
    rw [List.pairwise_append] at hl
    refine ⟨by simp, fun x hx => ?_⟩
    obtain hx | hx := List.mem_append.mp hx
    · exact Nat.le_of_lt (hl.2.2 x hx w (by simp))
    · exact Nat.le_of_eq (List.mem_singleton.mp hx)
  · rintro ⟨hw, hmax⟩
    obtain ⟨l, l', rfl⟩ := List.append_of_mem hw
    cases l' with
    | nil => exact ⟨l, rfl⟩
    | cons y l' =>
      have hlt : w < y := by
        have := (List.pairwise_append.mp hl).2.1
        exact List.rel_of_pairwise_cons this (by simp)
      have hle : y ≤ w := hmax y (by simp)
      omega

/-- The last writer is the instruction on the path that may write the register and that no
other such instruction follows. -/
theorem lastWriter?_eq_some_iff : p.lastWriter? lastPc reg = some w ↔
    (w ∈ p.pathTo lastPc ∧ p.writesAt reg w = true) ∧
      ∀ x ∈ p.pathTo lastPc, p.writesAt reg x = true → x ≤ w := by
  have hsorted := (pairwise_lt_pathTo p lastPc).filter (p.writesAt reg)
  rw [lastWriter?_eq_getLast?, getLast?_eq_some_iff_of_pairwise hsorted]
  simp only [List.mem_filter, and_imp]

theorem lastWriter?_eq_none_iff : p.lastWriter? lastPc reg = none ↔
    ∀ x ∈ p.pathTo lastPc, p.writesAt reg x = false := by
  rw [lastWriter?_eq_getLast?, List.getLast?_eq_none_iff, List.filter_eq_nil_iff]
  simp only [Bool.not_eq_true]

end Prototype

end ScriptDebug
