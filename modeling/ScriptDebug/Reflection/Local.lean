import ScriptDebug.Store.Basic
import ScriptDebug.Thread.CallStack

/-!
# Locals of a frame

The registers of an active call as its local variables and temporaries.  Locals
count from 1; negative numbers count the varargs.

## Implementation notes

`liveRegisters` is the one bound on what can be addressed: locals in scope
always, temporaries only below the reported top, and nothing outside the window.
Reading and writing both go through `register?`.
-/

namespace ScriptDebug

/-- The name of a live register that belongs to no local variable. -/
def temporaryName : String := "(*temporary)"

/-- The name of every vararg. -/
def varargName : String := "(*vararg)"

namespace Frame

def prototype? (s : Store) (fr : Frame) : Option Prototype := s.prototype? fr.callee

/-- The source line being executed, if it is known. -/
def line? (s : Store) (fr : Frame) : Option Nat :=
  (fr.prototype? s).bind fun p => p.line? fr.pc

/-- The name of the `n`-th local variable in scope. -/
def localName? (s : Store) (fr : Frame) (n : Nat) : Option String :=
  (fr.prototype? s).bind fun p => p.localName? n fr.pc

/-- The number of local variables in scope. -/
def activeLocals (s : Store) (fr : Frame) : Nat :=
  ((fr.prototype? s).map fun p => p.activeLocals fr.pc).getD 0

/-- The number of registers that can be addressed. -/
def liveRegisters (s : Store) (fr : Frame) : Nat :=
  match fr.window with
  | none => 0
  | some w => min (s.windowSize w) (max fr.top (fr.activeLocals s))

/-- The register that local `n` is kept in. -/
def register? (s : Store) (fr : Frame) (n : Int) : Option (WindowId × Nat) :=
  if 1 ≤ n ∧ n ≤ fr.liveRegisters s then fr.window.map fun w => (w, n.toNat - 1) else none

/-- The name that local `n` is reported under. -/
def reportedName (s : Store) (fr : Frame) (n : Int) : String :=
  (fr.localName? s n.toNat).getD temporaryName

/-- The vararg that a negative number counts. -/
def vararg? (fr : Frame) (n : Int) : Option Value :=
  if n < 0 then fr.varargs[n.natAbs - 1]? else none

/-- Name and value of local `n`. -/
def getLocal? (s : Store) (fr : Frame) (n : Int) : Option (String × Value) :=
  if n < 0 then
    (fr.vararg? n).map fun v => (varargName, v)
  else
    (fr.register? s n).map fun (w, slot) => (fr.reportedName s n, s.register w slot)

/-- Assign local `n`: its name and the store afterwards.  Varargs are read-only. -/
def setLocal? (s : Store) (fr : Frame) (n : Int) (v : Value) : Option (String × Store) :=
  (fr.register? s n).map fun (w, slot) => (fr.reportedName s n, s.setRegister w slot v)

end Frame

end ScriptDebug
