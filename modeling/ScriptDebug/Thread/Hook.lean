import ScriptDebug.Value.Basic

/-!
# Hooks

A hook is a function that is told about calls, returns, new lines and every
`count`-th instruction of a thread.  This module decides which events arise;
delivering them is left to the machine.

## Implementation notes

A decision names the function that is installed at that moment together with its
events, in the order in which they are to be delivered.  While the hook runs no
event arises at all.
-/

namespace ScriptDebug

/-- The events of calls, lines and returns that a hook asks for. -/
structure HookMask where
  call : Bool := false
  line : Bool := false
  ret : Bool := false
  deriving DecidableEq, Inhabited

namespace HookMask

def empty : HookMask := {}

/-- Ask for the events of a letter; other characters mean nothing. -/
def add (m : HookMask) : Char → HookMask
  | 'c' => { m with call := true }
  | 'l' => { m with line := true }
  | 'r' => { m with ret := true }
  | _ => m

/-- The events that the letters of a text ask for. -/
def ofString (s : String) : HookMask := s.toList.foldl add empty

theorem add_eq (m : HookMask) (c : Char) :
    m.add c = ⟨m.call || 'c' == c, m.line || 'l' == c, m.ret || 'r' == c⟩ := by
  unfold add
  split
  case h_4 hcall hline hret =>
    simp only [beq_false_of_ne (Ne.symm hcall), beq_false_of_ne (Ne.symm hline),
      beq_false_of_ne (Ne.symm hret), Bool.or_false]
  all_goals simp

/-- Letters only ever add to what was asked for. -/
theorem foldl_add (m : HookMask) (letters : List Char) :
    letters.foldl add m = ⟨m.call || letters.contains 'c', m.line || letters.contains 'l',
      m.ret || letters.contains 'r'⟩ := by
  induction letters generalizing m with
  | nil => simp
  | cons c letters ih => simp only [List.foldl_cons, ih, add_eq, List.contains_cons, Bool.or_assoc]

/-- An event is asked for exactly if its letter occurs. -/
theorem ofString_eq (s : String) : ofString s =
    ⟨s.toList.contains 'c', s.toList.contains 'l', s.toList.contains 'r'⟩ := by
  simp only [ofString, foldl_add, empty, Bool.false_or]

def isEmpty (m : HookMask) : Bool := !(m.call || m.line || m.ret)

/-- The letters of a mask, always in the order call, line, return. -/
def text (m : HookMask) : String :=
  (if m.call then "c" else "") ++ (if m.line then "l" else "") ++ (if m.ret then "r" else "")

theorem ofString_text (m : HookMask) : ofString m.text = m := by
  obtain ⟨_ | _, _ | _, _ | _⟩ := m <;> decide

end HookMask

inductive HookEvent where
  | call
  | ret
  | line (n : Nat)
  | count
  deriving DecidableEq, Inhabited

namespace HookEvent

def name : HookEvent → String
  | call => "call"
  | ret => "return"
  | line _ => "line"
  | count => "count"

/-- The arguments of the hook function: the name of the event and the line, if
the event has one. -/
def args : HookEvent → List Value
  | line n => [.string "line", .integer (Int64.ofNat n)]
  | e => [.string e.name, .nil]

end HookEvent

/-- Events to deliver and the function to deliver them to. -/
structure PendingEvents where
  function : FunctionId
  events : List HookEvent
  deriving DecidableEq, Inhabited

/-- The hook of one thread: its configuration and its bookkeeping. -/
structure Hook where
  function : Option FunctionId
  mask : HookMask
  /-- Every how many instructions a count event arises; 0 for never. -/
  count : Nat
  /-- Instructions seen with a count in force since the hook was installed. -/
  counter : Nat
  /-- Whether the hook function is running. -/
  inHook : Bool
  /-- The line seen at the previous instruction, if it was known. -/
  lastLine : Option Nat
  deriving DecidableEq, Inhabited

namespace Hook

/-- No hook is installed. -/
def initial : Hook := ⟨none, .empty, 0, 0, false, none⟩

/-- Replace the whole configuration and start counting anew. -/
def install (h : Hook) (function : Option FunctionId) (mask : HookMask) (count : Nat) : Hook :=
  { h with function, mask, count, counter := 0, lastLine := none }

/-- Replace the hook as asked for; without a function there is no mask and no count. -/
def replace (h : Hook) (function : Option FunctionId) (mask : String) (count : Nat) : Hook :=
  match function with
  | some f => h.install (some f) (HookMask.ofString mask) count
  | none => h.install none .empty 0

/-- The function that events go to at present. -/
def armed? (h : Hook) : Option FunctionId := if h.inHook then none else h.function

/-- The events of entering a call. -/
def callEvents (h : Hook) : Option PendingEvents :=
  h.armed?.bind fun f => if h.mask.call then some ⟨f, [.call]⟩ else none

/-- The events of leaving a call. -/
def returnEvents (h : Hook) : Option PendingEvents :=
  h.armed?.bind fun f => if h.mask.ret then some ⟨f, [.ret]⟩ else none

/-- Count one instruction: the event of every `count`-th. -/
def countInstruction (h : Hook) : Hook × List HookEvent :=
  if h.count = 0 then (h, [])
  else
    let counter := h.counter + 1
    ({ h with counter }, if counter % h.count = 0 then [.count] else [])

/-- Note the line of an instruction: the event of a known line that differs from
the one before. -/
def noteLine (h : Hook) (line : Option Nat) : Hook × List HookEvent :=
  if !h.mask.line then (h, [])
  else
    ({ h with lastLine := line },
      match line with
      | some n => if h.lastLine = some n then [] else [.line n]
      | none => [])

/-- The events of executing one instruction, a count before a line. -/
def instructionEvents (h : Hook) (line : Option Nat) : Hook × Option PendingEvents :=
  match h.armed? with
  | none => (h, none)
  | some f =>
    let (h, counted) := h.countInstruction
    let (h, lined) := h.noteLine line
    let events := counted ++ lined
    (h, if events.isEmpty then none else some ⟨f, events⟩)

@[simp] theorem replace_inHook (h : Hook) (f : Option FunctionId) (mask : String) (count : Nat) :
    (h.replace f mask count).inHook = h.inHook := by
  cases f <;> rfl

end Hook

end ScriptDebug
