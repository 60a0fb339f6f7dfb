import ScriptDebug.Bytecode.Constant
import ScriptDebug.Bytecode.Instruction

/-!
# Function prototypes

What a compiled function carries for execution and for debugging: code with a
line per instruction, constants, scopes of named registers and names of
upvalues.  Stripped prototypes lack the debugging part, and nothing here
requires the parts to fit together.
-/

namespace ScriptDebug

/-- The scope of a named register: it holds the local variable `name` from
`startPc` on and before `endPc`. -/
structure LocalVariable where
  name : String
  startPc : Nat
  endPc : Nat
  deriving DecidableEq, Inhabited

structure Prototype where
  /-- The name of the chunk, marked `=` for a literal name and `@` for a file. -/
  source : Option String
  /-- The line where the definition starts; 0 for a main chunk. -/
  lineDefined : Nat
  lastLineDefined : Nat
  paramCount : Nat
  isVararg : Bool
  /-- The number of registers a call needs. -/
  windowSize : Nat
  code : Array Instruction
  /-- The source line of each instruction, 0 where it is unknown. -/
  lines : Array Nat
  constants : Array Constant
  /-- Scopes of locals in the order of their registers. -/
  locals : List LocalVariable
  /-- The names of the upvalues, absent where stripped. -/
  upvalues : Array (Option String)
  deriving DecidableEq, Inhabited

namespace Prototype

/-- The source reported for a chunk without one. -/
def unknownSource : String := "=?"

def sourceName (p : Prototype) : String := p.source.getD unknownSource

def isMain (p : Prototype) : Bool := p.lineDefined == 0

/-- The known line of an instruction. -/
def line? (p : Prototype) (pc : Nat) : Option Nat :=
  p.lines[pc]?.filter (0 < ·)

/-- The local variables in scope at `pc`, in the order of their registers.  The
table is ordered by `startPc`, so the scan ends at the first later start. -/
def localsAt (p : Prototype) (pc : Nat) : List LocalVariable :=
  (p.locals.takeWhile fun v => v.startPc ≤ pc).filter fun v => pc < v.endPc

/-- The name of the `n`-th local variable in scope at `pc`, counted from 1. -/
def localName? (p : Prototype) (n pc : Nat) : Option String :=
  if n = 0 then none else (p.localsAt pc)[n - 1]?.map (·.name)

/-- The number of local variables in scope at `pc`. -/
def activeLocals (p : Prototype) (pc : Nat) : Nat := (p.localsAt pc).length

/-- The name of an upvalue, counted from 0. -/
def upvalueName? (p : Prototype) (i : Nat) : Option String := (p.upvalues[i]?).join

/-- Add a constant to the pool unless it is there; also its index. -/
def intern (p : Prototype) (k : Constant) : Prototype × Nat :=
  let (pool, i) := internConstant p.constants k
  ({ p with constants := pool }, i)

/-- Add a text to the pool as a string constant. -/
def internString (p : Prototype) (s : String) : Prototype × Nat := p.intern (.string s)

@[simp] theorem localName?_zero (p : Prototype) (pc : Nat) : p.localName? 0 pc = none := rfl

theorem localName?_succ (p : Prototype) (n pc : Nat) :
    p.localName? (n + 1) pc = (p.localsAt pc)[n]?.map (·.name) := by
  simp [localName?]

theorem isSome_localName?_iff (p : Prototype) (n pc : Nat) :
    (p.localName? n pc).isSome ↔ 1 ≤ n ∧ n ≤ p.activeLocals pc := by
  cases n with
  | zero => simp
  | succ n =>
    rw [localName?_succ, Option.isSome_map, Option.isSome_iff_ne_none, ne_eq,
      List.getElem?_eq_none_iff, activeLocals]
    omega

end Prototype

end ScriptDebug
