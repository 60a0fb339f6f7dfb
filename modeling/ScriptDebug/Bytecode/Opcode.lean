/-!
# Opcodes

The forty operations of the register machine.  An opcode fixes how the operand
bits of its instruction are read, whether the instruction assigns its `A`
register, and which metamethod it falls back to.

## Implementation notes

Opcode numbers are positions in `Opcode.all`, so numbering and decoding cannot
disagree: `ofNumber?_number` and `number_of_ofNumber?` are the two directions.
-/

namespace ScriptDebug

inductive Opcode where
  | move | loadK | loadKX | loadBool | loadNil
  | getUpval | getTabUp | getTable | setTabUp | setUpval | setTable
  | newTable | self
  | add | sub | mul | div | mod | pow | unm | not | len | concat
  | jmp | eq | lt | le | test | testSet
  | call | tailCall | ret
  | forLoop | forPrep | tforCall | tforLoop
  | setList | closure | vararg | extraArg
  deriving DecidableEq, Repr, Inhabited

/-- How the operand bits of an instruction are divided. -/
inductive OperandLayout where
  | abc | aBx | aSignedBx | ax
  deriving DecidableEq, Repr

namespace Opcode

/-- Every opcode, in the order of the opcode numbers. -/
def all : List Opcode :=
  [move, loadK, loadKX, loadBool, loadNil,
    getUpval, getTabUp, getTable, setTabUp, setUpval, setTable,
    newTable, self,
    add, sub, mul, div, mod, pow, unm, not, len, concat,
    jmp, eq, lt, le, test, testSet,
    call, tailCall, ret,
    forLoop, forPrep, tforCall, tforLoop,
    setList, closure, vararg, extraArg]

/-- The opcode with a given number; the numbers from 40 on are undefined. -/
def ofNumber? (n : Nat) : Option Opcode := all[n]?

def number (op : Opcode) : Nat := op.ctorIdx

theorem ofNumber?_number (op : Opcode) : ofNumber? op.number = some op := by
  cases op <;> rfl

theorem number_lt (op : Opcode) : op.number < 40 := by
  cases op <;> decide

theorem number_of_ofNumber? {n : Nat} {op : Opcode} (h : ofNumber? n = some op) :
    op.number = n := by
  have hn : n < 40 := by
    have := (List.getElem?_eq_some_iff.mp h).1
    simpa [all] using this
  revert h
  revert op
  have key : ∀ m, m < 40 → ∀ op, ofNumber? m = some op → op.number = m := by decide
  intro op h
  exact key n hn op h

def layout : Opcode → OperandLayout
  | extraArg => .ax
  | loadK | loadKX | closure => .aBx
  | jmp | forLoop | forPrep | tforLoop => .aSignedBx
  | _ => .abc

/-- Whether executing the instruction assigns its `A` register as such.
Ranges of registers and conditional assignments are not counted here. -/
def assignsA : Opcode → Bool
  | setTabUp | setUpval | setTable | jmp | eq | lt | le | test
  | ret | tforCall | setList | extraArg => false
  | _ => true

def mnemonic : Opcode → String
  | move => "MOVE"
  | loadK => "LOADK"
  | loadKX => "LOADKX"
  | loadBool => "LOADBOOL"
  | loadNil => "LOADNIL"
  | getUpval => "GETUPVAL"
  | getTabUp => "GETTABUP"
  | getTable => "GETTABLE"
  | setTabUp => "SETTABUP"
  | setUpval => "SETUPVAL"
  | setTable => "SETTABLE"
  | newTable => "NEWTABLE"
  | self => "SELF"
  | add => "ADD"
  | sub => "SUB"
  | mul => "MUL"
  | div => "DIV"
  | mod => "MOD"
  | pow => "POW"
  | unm => "UNM"
  | not => "NOT"
  | len => "LEN"
  | concat => "CONCAT"
  | jmp => "JMP"
  | eq => "EQ"
  | lt => "LT"
  | le => "LE"
  | test => "TEST"
  | testSet => "TESTSET"
  | call => "CALL"
  | tailCall => "TAILCALL"
  | ret => "RETURN"
  | forLoop => "FORLOOP"
  | forPrep => "FORPREP"
  | tforCall => "TFORCALL"
  | tforLoop => "TFORLOOP"
  | setList => "SETLIST"
  | closure => "CLOSURE"
  | vararg => "VARARG"
  | extraArg => "EXTRAARG"

def ofMnemonic? (name : String) : Option Opcode :=
  all.find? fun op => op.mnemonic == name

/-- The metamethod an instruction falls back to when its operands do not
support the operation themselves. -/
def metamethod? : Opcode → Option String
  | self | getTabUp | getTable => some "__index"
  | setTabUp | setTable => some "__newindex"
  | eq => some "__eq"
  | add => some "__add"
  | sub => some "__sub"
  | mul => some "__mul"
  | div => some "__div"
  | mod => some "__mod"
  | pow => some "__pow"
  | unm => some "__unm"
  | len => some "__len"
  | lt => some "__lt"
  | le => some "__le"
  | concat => some "__concat"
  | _ => none

end Opcode

end ScriptDebug
