import ScriptDebug.Bytecode.Opcode
import ScriptDebug.Number.Power
import ScriptDebug.Text.Numeral

/-!
# Instruction words

A 32-bit word holds, from the low bits up, an opcode number (6 bits), the
operand `A` (8), and then either `C` (9) and `B` (9), or one operand over the
same 18 bits, unsigned (`Bx`) or with a bias (`sBx`).  `Ax` covers everything
above the opcode number.

## Implementation notes

Operands are read as quotients and remainders of the word by powers of two, so
that the laws of encoding and decoding are laws of arithmetic.
-/

namespace ScriptDebug

/-- A 32-bit word of code, with a defined opcode or not. -/
structure Instruction where
  word : UInt32
  deriving DecidableEq, Inhabited

namespace Instruction

/-- The largest `sBx` operand that can be encoded; also the bias of the field. -/
def maxSignedBx : Nat := 131071

def opcodeNumber (i : Instruction) : Nat := i.word.toNat % 2 ^ 6

def a (i : Instruction) : Nat := i.word.toNat / 2 ^ 6 % 2 ^ 8

def b (i : Instruction) : Nat := i.word.toNat / 2 ^ 23 % 2 ^ 9

def c (i : Instruction) : Nat := i.word.toNat / 2 ^ 14 % 2 ^ 9

def bx (i : Instruction) : Nat := i.word.toNat / 2 ^ 14 % 2 ^ 18

/-- The signed operand of jumps and loops. -/
def signedBx (i : Instruction) : Int := (i.bx : Int) - maxSignedBx

def ax (i : Instruction) : Nat := i.word.toNat / 2 ^ 6 % 2 ^ 26

/-- The opcode of the word, if its number is defined. -/
def opcode? (i : Instruction) : Option Opcode := Opcode.ofNumber? i.opcodeNumber

/-- The opcode of the word, an undefined number counting as `EXTRAARG`: neither
has an effect on any register. -/
def opcodeOrExtra (i : Instruction) : Opcode := i.opcode?.getD .extraArg

/-- The word of an instruction with three operands, `a` below 256 and the
others below 512. -/
def ofABC (op : Opcode) (a b c : Nat) : Instruction :=
  ⟨UInt32.ofNat (op.number + a * 2 ^ 6 + c * 2 ^ 14 + b * 2 ^ 23)⟩

/-- The word of an instruction with operands `A` and `Bx`, the latter below `2 ^ 18`. -/
def ofABx (op : Opcode) (a bx : Nat) : Instruction :=
  ⟨UInt32.ofNat (op.number + a * 2 ^ 6 + bx * 2 ^ 14)⟩

/-- The word of an instruction with a signed operand of at most `maxSignedBx`
in either direction; the operand is stored with the bias added. -/
def ofASignedBx (op : Opcode) (a : Nat) (sbx : Int) : Instruction :=
  ofABx op a (sbx + maxSignedBx).toNat

/-- The word of an instruction with one operand, below `2 ^ 26`. -/
def ofAx (op : Opcode) (ax : Nat) : Instruction :=
  ⟨UInt32.ofNat (op.number + ax * 2 ^ 6)⟩

/-- The mnemonic with the operands of its layout, or the raw word. -/
def text (i : Instruction) : String :=
  match i.opcode? with
  | none => "<invalid " ++ hexWord i.word.toNat ++ ">"
  | some op =>
    op.mnemonic ++
      match op.layout with
      | .abc =>
        " A=" ++ i.a.repr ++ " B=" ++ i.b.repr ++ " C=" ++ i.c.repr
      | .aBx => " A=" ++ i.a.repr ++ " Bx=" ++ i.bx.repr
      | .aSignedBx => " A=" ++ i.a.repr ++ " sBx=" ++ i.signedBx.repr
      | .ax => " Ax=" ++ i.ax.repr

theorem toNat_ofABC {op : Opcode} {a b c : Nat} (ha : a < 256) (hb : b < 512) (hc : c < 512) :
    (ofABC op a b c).word.toNat = op.number + a * 2 ^ 6 + c * 2 ^ 14 + b * 2 ^ 23 := by
  have hop := op.number_lt
  simp only [ofABC, UInt32.toNat_ofNat']
  omega

theorem toNat_ofABx {op : Opcode} {a bx : Nat} (ha : a < 256) (hbx : bx < 2 ^ 18) :
    (ofABx op a bx).word.toNat = op.number + a * 2 ^ 6 + bx * 2 ^ 14 := by
  have hop := op.number_lt
  simp only [ofABx, UInt32.toNat_ofNat']
  omega

theorem toNat_ofAx {op : Opcode} {ax : Nat} (hax : ax < 2 ^ 26) :
    (ofAx op ax).word.toNat = op.number + ax * 2 ^ 6 := by
  have hop := op.number_lt
  simp only [ofAx, UInt32.toNat_ofNat']
  omega

theorem toNat_word_lt (i : Instruction) : i.word.toNat < 2 ^ 32 := i.word.toNat_lt

end Instruction

/-! ## Key operands

An operand that names a register when it is below 256 and otherwise an entry of
the constant pool; the flag is the bit of value 256. -/

namespace KeyOperand

def isConstant (x : Nat) : Bool := x / 2 ^ 8 % 2 == 1

/-- The pool index of an operand that names a constant: its value without the flag. -/
def constantIndex (x : Nat) : Nat := x - x / 2 ^ 8 % 2 * 2 ^ 8

/-- The operand that names the pool entry `x`: its value with the flag. -/
def ofConstant (x : Nat) : Nat := x + (1 - x / 2 ^ 8 % 2) * 2 ^ 8

theorem isConstant_ofConstant (x : Nat) : isConstant (ofConstant x) = true := by
  simp only [isConstant, ofConstant, beq_iff_eq]
  omega

theorem constantIndex_ofConstant {x : Nat} (h : x < 256) : constantIndex (ofConstant x) = x := by
  simp only [constantIndex, ofConstant]
  omega

end KeyOperand

end ScriptDebug
