import ScriptDebug.Thread.CallStack
import ScriptDebug.Thread.Hook

/-!
# Threads

The debug state of one script thread: its call stack, which appears with the
first notification, and its hook.  Notifications update the stack and decide
which hook events follow; while the hook runs they are ignored.
-/

namespace ScriptDebug

structure Thread where
  /-- Absent until the thread has been notified of anything. -/
  stack : Option CallStack
  hook : Hook
  deriving DecidableEq

namespace Thread

def new : Thread := ⟨none, .initial⟩

instance : Inhabited Thread := ⟨new⟩

/-- The call stack, empty if the thread has none yet. -/
def calls (t : Thread) : CallStack := t.stack.getD .empty

def depth (t : Thread) : Nat := t.calls.depth

def frame? (t : Thread) (level : Int) : Option Frame := t.calls.frame? level

/-- A call was entered. -/
def noteCall (t : Thread) (fr : Frame) : Thread × Option PendingEvents :=
  if t.hook.inHook then (t, none)
  else ({ t with stack := some (t.calls.push fr) }, t.hook.callEvents)

/-- The innermost call is left. -/
def noteReturn (t : Thread) : Thread × Option PendingEvents :=
  if t.hook.inHook then (t, none)
  else ({ t with stack := some t.calls.pop }, t.hook.returnEvents)

/-- The innermost call executes an instruction, on the line that `lineOf` tells
of its updated frame. -/
def noteInstruction (t : Thread) (lineOf : Frame → Option Nat) (pc : Nat) (varargs : List Value)
    (top : Nat) : Thread × Option PendingEvents :=
  if t.hook.inHook then (t, none)
  else
    let calls := t.calls.mapTop (·.advance pc varargs top)
    let (hook, pending) := t.hook.instructionEvents ((calls.frame? 1).bind lineOf)
    ({ stack := some calls, hook }, pending)

/-- Drop the calls above a depth; no events arise. -/
def unwindTo (t : Thread) (depth : Nat) : Thread :=
  if depth < t.depth then { t with stack := some (t.calls.unwindTo depth) } else t

end Thread

end ScriptDebug
