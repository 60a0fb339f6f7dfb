import ScriptDebug.Bytecode.Prototype

/-!
# Disassembly

One line per instruction: a padded mnemonic, the operands of its layout, and
after a tab a comment that names the constants and upvalues involved.
-/

namespace ScriptDebug

namespace Prototype

/-- A key operand in a comment: a constant is shown, a register is not. -/
def keyComment (p : Prototype) (x : Nat) : String :=
  if KeyOperand.isConstant x then
    match p.constants[KeyOperand.constantIndex x]? with
    | some k => " " ++ k.text
    | none => " K?"
  else
    ""

/-- An upvalue in a comment; one without a name is shown as a dash. -/
def upvalueComment (p : Prototype) (i : Nat) : String :=
  "\t; " ++ (p.upvalueName? i).getD "-"

/-- The comment of an instruction, empty for most opcodes. -/
def comment (p : Prototype) (op : Opcode) (i : Instruction) : String :=
  match op with
  | .getTabUp => p.upvalueComment i.b ++ p.keyComment i.c
  | .setTabUp => p.upvalueComment i.a ++ p.keyComment i.b ++ p.keyComment i.c
  | .getUpval | .setUpval => p.upvalueComment i.b
  | .getTable | .self =>
    if KeyOperand.isConstant i.c then "\t;" ++ p.keyComment i.c else ""
  | .loadK =>
    match p.constants[i.bx]? with
    | some k => "\t; " ++ k.text
    | none => ""
  | .closure => "\t; function [" ++ i.bx.repr ++ "]"
  | .jmp => "\t; to +" ++ (i.signedBx + 1).repr
  | _ => ""

end Prototype

/-- The operands of an instruction in a listing, separated by blanks. -/
def Instruction.operandText (i : Instruction) : OperandLayout → String
  | .abc => i.a.repr ++ " " ++ i.b.repr ++ " " ++ i.c.repr
  | .aBx => i.a.repr ++ " " ++ i.bx.repr
  | .aSignedBx => i.a.repr ++ " " ++ i.signedBx.repr
  | .ax => i.ax.repr

/-- The listing of the instruction at `pc`. -/
def Prototype.disassemble (p : Prototype) (pc : Nat) : String :=
  match p.code[pc]? with
  | none => "<pc " ++ pc.repr ++ " out of range>"
  | some i =>
    match i.opcode? with
    | none => i.text
    | some op => padRight 12 op.mnemonic ++ i.operandText op.layout ++ p.comment op i

end ScriptDebug
