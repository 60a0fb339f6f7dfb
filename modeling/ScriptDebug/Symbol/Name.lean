import ScriptDebug.Symbol.LastWriter

/-!
# Symbolic names

Recovers the name under which source code refers to the value of a register,
from the code alone.  A local variable in scope names its register; otherwise
the last instruction that wrote the register tells where the value came from.

## Implementation notes

`nameOfWrite` is the rule for one writing instruction, given the names of the
registers at that instruction.  `nameWithin` applies it with a bound on nesting;
each nested question is asked at an earlier instruction.
-/

namespace ScriptDebug

/-- How a name was obtained. -/
inductive NameKind where
  | global | localVariable | method | field | upvalue | constant | metamethod | forIterator
  deriving DecidableEq, Inhabited

def NameKind.text : NameKind → String
  | global => "global"
  | localVariable => "local"
  | method => "method"
  | field => "field"
  | upvalue => "upvalue"
  | constant => "constant"
  | metamethod => "metamethod"
  | forIterator => "for iterator"

structure SymbolicName where
  name : String
  kind : NameKind
  deriving DecidableEq, Inhabited

/-- The upvalue or local that holds the global variables. -/
def environmentName : String := "_ENV"

/-- The name given to what has none. -/
def unknownName : String := "?"

/-- How many moves and register keys are followed before a name is given up. -/
def nestingBound : Nat := 200

namespace Prototype

/-- The string constant at a pool index. -/
def stringConstant? (p : Prototype) (k : Nat) : Option String :=
  (p.constants[k]?).bind Constant.string?

/-- The name of a key operand: a string constant is its own name, and a register
is named only when it was loaded from a string constant. -/
def keyName (p : Prototype) (registerName : Nat → Option SymbolicName) (c : Nat) : String :=
  if KeyOperand.isConstant c then
    (p.stringConstant? (KeyOperand.constantIndex c)).getD unknownName
  else
    match registerName c with
    | some ⟨name, .constant⟩ => name
    | _ => unknownName

/-- The name of an indexed table: that of the upvalue for `GETTABUP`, the local
in scope for `GETTABLE`. -/
def indexedTableName? (p : Prototype) (pc : Nat) (i : Instruction) : Option String :=
  match i.opcode? with
  | some .getTabUp =>
    match p.upvalues[i.b]? with
    | some name => name
    | none => some unknownName
  | _ => p.localName? (i.b + 1) pc

/-- The pool index of the constant that a load at `pc` reads; the extended form
finds it in the next word. -/
def loadedConstant? (p : Prototype) (pc : Nat) (i : Instruction) : Option Nat :=
  match i.opcode? with
  | some .loadK => some i.bx
  | some .loadKX => (p.code[pc + 1]?).map (·.ax)
  | _ => none

/-- The name of the value that the instruction at `pc` writes, given the names
of the registers there. -/
def nameOfWrite (p : Prototype) (registerName : Nat → Option SymbolicName) (pc : Nat)
    (i : Instruction) : Option SymbolicName :=
  match i.opcode? with
  | some .move => if i.b < i.a then registerName i.b else none
  | some .getTabUp | some .getTable =>
    let kind :=
      if p.indexedTableName? pc i = some environmentName then .global else .field
    some ⟨p.keyName registerName i.c, kind⟩
  | some .getUpval => some ⟨(p.upvalueName? i.b).getD unknownName, .upvalue⟩
  | some .loadK | some .loadKX => do
    let k ← p.loadedConstant? pc i
    let s ← p.stringConstant? k
    return ⟨s, .constant⟩
  | some .self => some ⟨p.keyName registerName i.c, .method⟩
  | _ => none

/-- The name of register `reg` just before `lastPc`, with at most `bound` nested
questions. -/
def nameWithin (p : Prototype) (bound lastPc reg : Nat) : Option SymbolicName :=
  match p.localName? (reg + 1) lastPc with
  | some name => some ⟨name, .localVariable⟩
  | none =>
    match bound with
    | 0 => none
    | bound + 1 => do
      let pc ← p.lastWriter? lastPc reg
      let i ← p.code[pc]?
      p.nameOfWrite (p.nameWithin bound pc) pc i

/-- The name of the value that register `reg` holds when `pc` is about to run. -/
def registerName? (p : Prototype) (pc reg : Nat) : Option SymbolicName :=
  p.nameWithin nestingBound pc reg

/-- The name of the function that the instruction at `pc` calls. -/
def calleeName? (p : Prototype) (pc : Nat) : Option SymbolicName := do
  let i ← p.code[pc]?
  match ← i.opcode? with
  | .call | .tailCall => p.registerName? pc i.a
  | .tforCall => some ⟨"for iterator", .forIterator⟩
  | op => op.metamethod?.map fun name => ⟨name, .metamethod⟩

end Prototype

end ScriptDebug
