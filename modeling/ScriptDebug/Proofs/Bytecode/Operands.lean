import Mathlib.Algebra.Group.Nat.Defs
import ScriptDebug.Bytecode.Instruction

/-!
# Encoding and decoding of instructions

An opcode and the operands of any layout determine a word, and the word tells them again.
Conversely the operands that a word shows under the layout of its opcode determine the
word.  One signed operand is shown but not accepted: the field of a jump offset has room
for one offset more than there are on the negative side.

## Implementation notes

The operands of all layouts are one type, so that encoding and decoding are one function
each.  `Operands.bitsOver` is the word as bits at their positions; it ties the arithmetic of
the encoders to the layout.
-/

namespace ScriptDebug

/-- The operands of an instruction, divided in one of the layouts. -/
inductive Operands where
  | abc (a b c : Nat)
  | aBx (a bx : Nat)
  | aSignedBx (a : Nat) (sbx : Int)
  | ax (x : Nat)
  deriving DecidableEq

namespace Operands

def layout : Operands → OperandLayout
  | .abc .. => .abc
  | .aBx .. => .aBx
  | .aSignedBx .. => .aSignedBx
  | .ax _ => .ax

/-- The operands that an instruction may be built of. -/
def InRange : Operands → Prop
  | .abc a b c => a < 2 ^ 8 ∧ b < 2 ^ 9 ∧ c < 2 ^ 9
  | .aBx a bx => a < 2 ^ 8 ∧ bx < 2 ^ 18
  | .aSignedBx a sbx =>
    a < 2 ^ 8 ∧ -(Instruction.maxSignedBx : Int) ≤ sbx ∧ sbx ≤ Instruction.maxSignedBx
  | .ax x => x < 2 ^ 26

/-- The bits of a word: the operands at their positions over an opcode number. -/
def bitsOver (n : Nat) : Operands → Nat
  | .abc a b c => b <<< 23 ||| (c <<< 14 ||| (a <<< 6 ||| n))
  | .aBx a bx => bx <<< 14 ||| (a <<< 6 ||| n)
  | .aSignedBx a sbx => (sbx + Instruction.maxSignedBx).toNat <<< 14 ||| (a <<< 6 ||| n)
  | .ax x => x <<< 6 ||| n

end Operands

namespace Instruction

/-- The word of an instruction with the given operands, in their layout. -/
def ofOperands (op : Opcode) : Operands → Instruction
  | .abc a b c => ofABC op a b c
  | .aBx a bx => ofABx op a bx
  | .aSignedBx a sbx => ofASignedBx op a sbx
  | .ax x => ofAx op x

/-- The operands that a word shows in a layout. -/
def operands (i : Instruction) : OperandLayout → Operands
  | .abc => .abc i.a i.b i.c
  | .aBx => .aBx i.a i.bx
  | .aSignedBx => .aSignedBx i.a i.signedBx
  | .ax => .ax i.ax

variable {i j : Instruction} {op : Opcode} {o : Operands} {x y z : Nat}

/-! ## Fields -/

theorem a_lt (i : Instruction) : i.a < 256 := Nat.mod_lt _ (by decide)

theorem b_lt (i : Instruction) : i.b < 512 := Nat.mod_lt _ (by decide)

theorem c_lt (i : Instruction) : i.c < 512 := Nat.mod_lt _ (by decide)

theorem bx_lt (i : Instruction) : i.bx < 2 ^ 18 := Nat.mod_lt _ (by decide)

theorem ax_lt (i : Instruction) : i.ax < 2 ^ 26 := Nat.mod_lt _ (by decide)

/-- A key operand that is not a constant names a register. -/
theorem c_lt_of_isConstant_eq_false (hc : KeyOperand.isConstant i.c = false) : i.c < 256 := by
  have hlt := i.c_lt
  simp only [KeyOperand.isConstant, beq_eq_false_iff_ne] at hc
  omega

@[ext] theorem ext_toNat (h : i.word.toNat = j.word.toNat) : i = j := by
  cases i
  cases j
  exact congrArg mk (UInt32.toNat_inj.mp h)

/-- The number of a defined opcode is the low end of the word. -/
theorem opcodeNumber_eq (h : i.opcode? = some op) : i.word.toNat % 2 ^ 6 = op.number :=
  (Opcode.number_of_ofNumber? h).symm

theorem opcode?_of_number (h : i.opcodeNumber = op.number) : i.opcode? = some op := by
  rw [opcode?, h, Opcode.ofNumber?_number]

/-! ## Decoding what was encoded -/

theorem opcode?_ofABC (hx : x < 256) (hy : y < 512) (hz : z < 512) :
    (ofABC op x y z).opcode? = some op := by
  have hop := op.number_lt
  apply opcode?_of_number
  rw [opcodeNumber, toNat_ofABC hx hy hz]
  omega

theorem opcode?_ofABx (hx : x < 256) (hy : y < 2 ^ 18) : (ofABx op x y).opcode? = some op := by
  have hop := op.number_lt
  apply opcode?_of_number
  rw [opcodeNumber, toNat_ofABx hx hy]
  omega

theorem opcode?_ofAx (hx : x < 2 ^ 26) : (ofAx op x).opcode? = some op := by
  have hop := op.number_lt
  apply opcode?_of_number
  rw [opcodeNumber, toNat_ofAx hx]
  omega

theorem a_ofABC (hx : x < 256) (hy : y < 512) (hz : z < 512) : (ofABC op x y z).a = x := by
  have hop := op.number_lt
  rw [a, toNat_ofABC hx hy hz]
  omega

theorem b_ofABC (hx : x < 256) (hy : y < 512) (hz : z < 512) : (ofABC op x y z).b = y := by
  have hop := op.number_lt
  rw [b, toNat_ofABC hx hy hz]
  omega

theorem c_ofABC (hx : x < 256) (hy : y < 512) (hz : z < 512) : (ofABC op x y z).c = z := by
  have hop := op.number_lt
  rw [c, toNat_ofABC hx hy hz]
  omega

theorem a_ofABx (hx : x < 256) (hy : y < 2 ^ 18) : (ofABx op x y).a = x := by
  have hop := op.number_lt
  rw [a, toNat_ofABx hx hy]
  omega

theorem bx_ofABx (hx : x < 256) (hy : y < 2 ^ 18) : (ofABx op x y).bx = y := by
  have hop := op.number_lt
  rw [bx, toNat_ofABx hx hy]
  omega

theorem ax_ofAx (hx : x < 2 ^ 26) : (ofAx op x).ax = x := by
  have hop := op.number_lt
  rw [ax, toNat_ofAx hx]
  omega

/-- The bias takes the signed operands to the numbers that the field has room for. -/
theorem biased_lt {sbx : Int} (h : sbx ≤ maxSignedBx) : (sbx + maxSignedBx).toNat < 2 ^ 18 := by
  unfold maxSignedBx at h ⊢
  omega

theorem opcode?_ofOperands (h : o.InRange) : (ofOperands op o).opcode? = some op := by
  cases o with
  | abc a b c => exact opcode?_ofABC h.1 h.2.1 h.2.2
  | aBx a bx => exact opcode?_ofABx h.1 h.2
  | aSignedBx a sbx => exact opcode?_ofABx h.1 (biased_lt h.2.2)
  | ax x => exact opcode?_ofAx h

theorem operands_ofOperands (h : o.InRange) : (ofOperands op o).operands o.layout = o := by
  cases o with
  | abc a b c =>
    obtain ⟨ha, hb, hc⟩ := h
    simp only [ofOperands, Operands.layout, operands, a_ofABC ha hb hc, b_ofABC ha hb hc,
      c_ofABC ha hb hc]
  | aBx a bx =>
    obtain ⟨ha, hbx⟩ := h
    simp only [ofOperands, Operands.layout, operands, a_ofABx ha hbx, bx_ofABx ha hbx]
  | aSignedBx a sbx =>
    obtain ⟨ha, hlow, hhigh⟩ := h
    have hbx := biased_lt hhigh
    have hsigned : ((sbx + maxSignedBx).toNat : Int) - maxSignedBx = sbx := by omega
    simp only [ofOperands, Operands.layout, operands, ofASignedBx, signedBx, a_ofABx ha hbx,
      bx_ofABx ha hbx, hsigned]
  | ax x => simp only [ofOperands, Operands.layout, operands, ax_ofAx h]

/-! ## Encoding what was decoded -/

/-- A word shows no operands out of range but the largest offset that its field has room for. -/
theorem inRange_operands_iff (i : Instruction) (l : OperandLayout) :
    (i.operands l).InRange ↔ ¬ (l = .aSignedBx ∧ i.bx = 2 ^ 18 - 1) := by
  have ha := i.a_lt
  cases l with
  | abc => simp [operands, Operands.InRange, ha, i.b_lt, i.c_lt]
  | aBx => simp [operands, Operands.InRange, ha, i.bx_lt]
  | aSignedBx =>
    have hbx := i.bx_lt
    simp only [operands, Operands.InRange, signedBx, maxSignedBx, true_and]
    omega
  | ax => simp [operands, Operands.InRange, i.ax_lt]

theorem signedBx_eq_iff (i : Instruction) :
    i.signedBx = maxSignedBx + 1 ↔ i.bx = 2 ^ 18 - 1 := by
  unfold signedBx maxSignedBx
  omega

theorem ofABx_fields (h : i.opcode? = some op) : ofABx op i.a i.bx = i := by
  have hnumber := opcodeNumber_eq h
  have hword := i.toNat_word_lt
  ext
  rw [toNat_ofABx i.a_lt i.bx_lt]
  unfold a bx
  omega

theorem ofOperands_operands (h : i.opcode? = some op) (l : OperandLayout) :
    ofOperands op (i.operands l) = i := by
  have hnumber := opcodeNumber_eq h
  have hword := i.toNat_word_lt
  cases l with
  | abc =>
    ext
    simp only [operands, ofOperands, toNat_ofABC i.a_lt i.b_lt i.c_lt]
    unfold a b c
    omega
  | aBx => exact ofABx_fields h
  | aSignedBx =>
    have hbx : (i.signedBx + maxSignedBx).toNat = i.bx := by
      unfold signedBx
      omega
    simp only [operands, ofOperands, ofASignedBx, hbx]
    exact ofABx_fields h
  | ax =>
    ext
    simp only [operands, ofOperands, toNat_ofAx i.ax_lt]
    unfold ax
    omega

/-! ## Words as bits -/

/-- The bits of a word from a position on, by a shift and a mask. -/
def bits (i : Instruction) (position width : Nat) : Nat :=
  (i.word.toNat >>> position) &&& (2 ^ width - 1)

theorem bits_eq (i : Instruction) (position width : Nat) :
    i.bits position width = i.word.toNat / 2 ^ position % 2 ^ width := by
  rw [bits, Nat.and_two_pow_sub_one_eq_mod, Nat.shiftRight_eq_div_pow]

/-- Where the fields lie: `Bx` covers `C` and `B`, and `Ax` covers `A` too. -/
theorem fields_eq_bits (i : Instruction) :
    i.opcodeNumber = i.bits 0 6 ∧ i.a = i.bits 6 8 ∧ i.c = i.bits 14 9 ∧ i.b = i.bits 23 9 ∧
      i.bx = i.bits 14 18 ∧ i.ax = i.bits 6 26 := by
  simp only [bits_eq, Nat.pow_zero, Nat.div_one]
  exact ⟨rfl, rfl, rfl, rfl, rfl, rfl⟩

/-- A number shifted past another one and joined with it is a sum. -/
theorem shiftLeft_or_eq {k : Nat} (h : y < 2 ^ k) : x <<< k ||| y = x * 2 ^ k + y := by
  rw [← Nat.shiftLeft_add_eq_or_of_lt h, Nat.shiftLeft_eq]

theorem shiftLeft_or_number (op : Opcode) (x : Nat) :
    x <<< 6 ||| op.number = x * 2 ^ 6 + op.number :=
  shiftLeft_or_eq (Nat.lt_trans op.number_lt (by decide))

theorem toNat_ofABx_eq_or (hx : x < 256) (hy : y < 2 ^ 18) :
    (ofABx op x y).word.toNat = y <<< 14 ||| (x <<< 6 ||| op.number) := by
  have hop := op.number_lt
  rw [shiftLeft_or_number, shiftLeft_or_eq (by omega), toNat_ofABx hx hy]
  omega

/-- The word of operands in range has nothing but their bits and those of the opcode. -/
theorem toNat_ofOperands (h : o.InRange) :
    (ofOperands op o).word.toNat = o.bitsOver op.number := by
  have hop := op.number_lt
  cases o with
  | abc a b c =>
    obtain ⟨ha, hb, hc⟩ := h
    have hmiddle : c <<< 14 ||| (a * 2 ^ 6 + op.number) = c * 2 ^ 14 + (a * 2 ^ 6 + op.number) :=
      shiftLeft_or_eq (by omega)
    calc
      (ofABC op a b c).word.toNat = op.number + a * 2 ^ 6 + c * 2 ^ 14 + b * 2 ^ 23 :=
        toNat_ofABC ha hb hc
      _ = b * 2 ^ 23 + (c * 2 ^ 14 + (a * 2 ^ 6 + op.number)) := by omega
      _ = b <<< 23 ||| (c * 2 ^ 14 + (a * 2 ^ 6 + op.number)) :=
        (shiftLeft_or_eq (by omega)).symm
      _ = b <<< 23 ||| (c <<< 14 ||| (a <<< 6 ||| op.number)) := by
        rw [shiftLeft_or_number, hmiddle]
  | aBx a bx => exact toNat_ofABx_eq_or h.1 h.2
  | aSignedBx a sbx => exact toNat_ofABx_eq_or h.1 (biased_lt h.2.2)
  | ax x =>
    rw [ofOperands, Operands.bitsOver, shiftLeft_or_number, toNat_ofAx h]
    omega

end Instruction

/-! ## Key operands -/

namespace KeyOperand

variable {x : Nat}

theorem ofConstant_lt (hx : x < 256) : ofConstant x < 512 := by
  unfold ofConstant
  omega

/-- An operand is the number of a register or of a constant. -/
theorem register_or_constant (hx : x < 512) : (x < 256 ∧ isConstant x = false) ∨
    (isConstant x = true ∧ constantIndex x < 256 ∧ ofConstant (constantIndex x) = x) := by
  simp only [isConstant, constantIndex, ofConstant, beq_iff_eq, beq_eq_false_iff_ne]
  omega

end KeyOperand

/-! ## Words and operands -/

namespace Instruction

/-- Operands in range are read back from the word that is built of them, with the opcode,
each from bits of its own.  The operands that a word with a defined opcode shows in the
layout of the opcode are in range and give the word back, unless the field of a signed
operand is all ones: that operand is one more than the largest.  Constants below 256 are
key operands, and every key operand is a register or such a constant. -/
theorem words_and_operands_correspond (op : Opcode) (o : Operands) (i : Instruction) (x : Nat) :
    (o.InRange →
      (ofOperands op o).word.toNat = o.bitsOver op.number ∧
      (ofOperands op o).opcode? = some op ∧
      (ofOperands op o).operands o.layout = o) ∧
    (i.opcodeNumber = i.bits 0 6 ∧ i.a = i.bits 6 8 ∧ i.c = i.bits 14 9 ∧ i.b = i.bits 23 9 ∧
      i.bx = i.bits 14 18 ∧ i.ax = i.bits 6 26) ∧
    (i.opcode? = some op →
      ((i.operands op.layout).InRange ↔ ¬ (op.layout = .aSignedBx ∧ i.bx = 2 ^ 18 - 1)) ∧
      ((i.operands op.layout).InRange → ofOperands op (i.operands op.layout) = i) ∧
      (op.layout = .aSignedBx → i.bx = 2 ^ 18 - 1 → i.signedBx = maxSignedBx + 1)) ∧
    (x < 256 →
      KeyOperand.isConstant (KeyOperand.ofConstant x) = true ∧ KeyOperand.ofConstant x < 512 ∧
      KeyOperand.constantIndex (KeyOperand.ofConstant x) = x) ∧
    (x < 512 →
      (x < 256 ∧ KeyOperand.isConstant x = false) ∨
      (KeyOperand.isConstant x = true ∧ KeyOperand.constantIndex x < 256 ∧
        KeyOperand.ofConstant (KeyOperand.constantIndex x) = x)) := by
  refine ⟨fun h => ?_, i.fields_eq_bits, fun h => ?_, fun h => ?_, KeyOperand.register_or_constant⟩
  · exact ⟨toNat_ofOperands h, opcode?_ofOperands h, operands_ofOperands h⟩
  · exact ⟨i.inRange_operands_iff op.layout, fun _ => ofOperands_operands h op.layout,
      fun _ hones => i.signedBx_eq_iff.mpr hones⟩
  · exact ⟨KeyOperand.isConstant_ofConstant x, KeyOperand.ofConstant_lt h,
      KeyOperand.constantIndex_ofConstant h⟩

/-- The longest jump back is read back, and its word is built again.  The jump with a field
of all ones reaches further ahead than a jump can be built to.  The last register and the
last constant are different key operands. -/
theorem extreme_operands :
    let back : Operands := .aSignedBx 0 (-131071)
    let backWord : Instruction := ⟨0x17⟩
    let ahead : Instruction := ⟨0xFFFFC017⟩
    (back.InRange ∧ (ofOperands .jmp back).operands .aSignedBx = back) ∧
      (backWord.opcode? = some .jmp ∧
        ofOperands .jmp (backWord.operands .aSignedBx) = backWord) ∧
      (ahead.opcode? = some .jmp ∧ ahead.signedBx = 131072 ∧
        ¬ (ahead.operands .aSignedBx).InRange) ∧
      KeyOperand.isConstant 255 = false ∧
      KeyOperand.constantIndex (KeyOperand.ofConstant 255) = 255 := by
  intro back backWord ahead
  have hback : back.InRange := ⟨by decide, by decide, by decide⟩
  have hbackOp : backWord.opcode? = some .jmp := by decide
  have hnotOnes : backWord.bx ≠ 2 ^ 18 - 1 := by decide
  have hop : ahead.opcode? = some .jmp := by decide
  have hones : ahead.bx = 2 ^ 18 - 1 := by decide
  obtain ⟨hbuilt, -, hshown, hconstant, hregister⟩ :=
    words_and_operands_correspond .jmp back backWord 255
  obtain ⟨hbackRange, hrebuilt, -⟩ := hshown hbackOp
  obtain ⟨-, -, haheadShown, -⟩ := words_and_operands_correspond .jmp back ahead 255
  obtain ⟨haheadRange, -, hoffset⟩ := haheadShown hop
  have hlastRegister : KeyOperand.isConstant 255 = false := by
    obtain ⟨-, hplain⟩ | ⟨hmarked, -⟩ := hregister (by decide)
    · exact hplain
    · exact absurd hmarked (by decide)
  exact ⟨⟨hback, (hbuilt hback).2.2⟩,
    ⟨hbackOp, hrebuilt (hbackRange.mpr fun h => hnotOnes h.2)⟩,
    ⟨hop, hoffset rfl hones, fun h => haheadRange.mp h ⟨rfl, hones⟩⟩,
    hlastRegister, (hconstant (by decide)).2.2⟩

end Instruction

end ScriptDebug
