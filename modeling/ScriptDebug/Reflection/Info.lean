import ScriptDebug.Reflection.Local
import ScriptDebug.Symbol.Name
import ScriptDebug.Text.ShortSource

/-!
# Descriptions of functions and calls

The description of a function, running at a level of a call stack or not.  It
has several groups, each of which is there only if its letter was asked for.
-/

namespace ScriptDebug

inductive FunctionKind where
  | script | main | native
  deriving DecidableEq, Inhabited

def FunctionKind.text : FunctionKind → String
  | script => "script"
  | main => "main"
  | native => "native"

/-- The source reported for native functions. -/
def nativeSource : String := "=[native]"

/-- Where a function comes from.  Native functions have no lines. -/
structure SourceInfo where
  kind : FunctionKind
  source : String
  shortSource : String
  lineDefined : Option Nat
  lastLineDefined : Option Nat
  deriving DecidableEq, Inhabited

structure UpvalueInfo where
  upvalueCount : Nat
  paramCount : Nat
  isVararg : Bool
  deriving DecidableEq, Inhabited

/-- A line as it is reported: -1 where it is unknown. -/
def lineNumber (line : Option Nat) : Int := (line.map Int.ofNat).getD (-1)

/-- The groups of a description that are asked for. -/
structure InfoRequest where
  source : Bool := false
  currentLine : Bool := false
  upvalues : Bool := false
  name : Bool := false
  tailCall : Bool := false
  activeLines : Bool := false
  function : Bool := false
  deriving DecidableEq, Inhabited

namespace InfoRequest

/-- Ask for the group of a letter; other characters mean nothing. -/
def add (r : InfoRequest) : Char → InfoRequest
  | 'S' => { r with source := true }
  | 'l' => { r with currentLine := true }
  | 'u' => { r with upvalues := true }
  | 'n' => { r with name := true }
  | 't' => { r with tailCall := true }
  | 'L' => { r with activeLines := true }
  | 'f' => { r with function := true }
  | _ => r

/-- The groups that the letters of a text ask for. -/
def ofString (what : String) : InfoRequest := what.toList.foldl add {}

theorem add_eq (r : InfoRequest) (c : Char) : r.add c =
    { source := r.source || 'S' == c
      currentLine := r.currentLine || 'l' == c
      upvalues := r.upvalues || 'u' == c
      name := r.name || 'n' == c
      tailCall := r.tailCall || 't' == c
      activeLines := r.activeLines || 'L' == c
      function := r.function || 'f' == c } := by
  unfold add
  split
  case h_8 hS hl hu hn ht hL hf =>
    simp only [beq_false_of_ne (Ne.symm hS), beq_false_of_ne (Ne.symm hl),
      beq_false_of_ne (Ne.symm hu), beq_false_of_ne (Ne.symm hn), beq_false_of_ne (Ne.symm ht),
      beq_false_of_ne (Ne.symm hL), beq_false_of_ne (Ne.symm hf), Bool.or_false]
  all_goals simp

/-- Letters only ever add to what was asked for. -/
theorem foldl_add (r : InfoRequest) (letters : List Char) : letters.foldl add r =
    { source := r.source || letters.contains 'S'
      currentLine := r.currentLine || letters.contains 'l'
      upvalues := r.upvalues || letters.contains 'u'
      name := r.name || letters.contains 'n'
      tailCall := r.tailCall || letters.contains 't'
      activeLines := r.activeLines || letters.contains 'L'
      function := r.function || letters.contains 'f' } := by
  induction letters generalizing r with
  | nil => simp
  | cons c letters ih => simp only [List.foldl_cons, ih, add_eq, List.contains_cons, Bool.or_assoc]

/-- A group is asked for exactly if its letter occurs. -/
theorem ofString_eq (what : String) : ofString what =
    { source := what.toList.contains 'S'
      currentLine := what.toList.contains 'l'
      upvalues := what.toList.contains 'u'
      name := what.toList.contains 'n'
      tailCall := what.toList.contains 't'
      activeLines := what.toList.contains 'L'
      function := what.toList.contains 'f' } := by
  simp only [ofString, foldl_add, Bool.false_or]

/-- What scripts get when they ask for nothing in particular. -/
def defaultLetters : String := "flnStu"

end InfoRequest

/-- The groups of a description that were asked for. -/
structure SelectedInfo where
  source : Option SourceInfo
  /-- The line of the call, if there is one and its line is known. -/
  currentLine : Option (Option Nat)
  upvalues : Option UpvalueInfo
  /-- The name under which the call was made, if it can be resolved. -/
  name : Option (Option SymbolicName)
  isTailCall : Option Bool
  /-- The line of every call of the function, innermost first. -/
  activeLines : Option (List (Option Nat))
  function : Option FunctionId
  deriving DecidableEq, Inhabited

/-! ## Describing -/

namespace Store

def sourceInfo (s : Store) (size : Nat) (f : FunctionId) : SourceInfo :=
  match s.prototype? f with
  | some p =>
    { kind := if p.isMain then .main else .script
      source := p.sourceName
      shortSource := shortSource p.sourceName size
      lineDefined := some p.lineDefined
      lastLineDefined := some p.lastLineDefined }
  | none =>
    { kind := .native
      source := nativeSource
      shortSource := (s.nativeName? f).getD unknownName
      lineDefined := none
      lastLineDefined := none }

def upvalueInfo (s : Store) (f : FunctionId) : UpvalueInfo :=
  match s.prototype? f with
  | some p => ⟨p.upvalues.size, p.paramCount, p.isVararg⟩
  | none => ⟨0, 0, true⟩

/-- The name under which the call at a level was made, resolved from the
instruction its caller executes.  Only script callers can be resolved. -/
def callName? (s : Store) (cs : CallStack) (level : Int) : Option SymbolicName := do
  let caller ← cs.callerOf? level
  let p ← caller.prototype? s
  p.calleeName? caller.pc

/-- The line of every call of a function, innermost first. -/
def activeLines (s : Store) (cs : CallStack) (f : FunctionId) : List (Option Nat) :=
  (cs.frames.filter fun fr => fr.callee == f).map fun fr => fr.line? s

/-- The groups of the description of a function that are asked for, given the call of it that
is meant. -/
def functionInfo (s : Store) (size : Nat) (cs : CallStack) (r : InfoRequest) (f : FunctionId)
    (call : Option (Frame × Nat)) : SelectedInfo where
  source := if r.source then some (s.sourceInfo size f) else none
  currentLine := if r.currentLine then some (call.bind fun (fr, _) => fr.line? s) else none
  upvalues := if r.upvalues then some (s.upvalueInfo f) else none
  name := if r.name then some (call.bind fun (_, level) => s.callName? cs level) else none
  isTailCall := if r.tailCall then some false else none
  activeLines := if r.activeLines then some (s.activeLines cs f) else none
  function := if r.function then some f else none

/-- The description of the call at a level, if there is one. -/
def infoAtLevel? (s : Store) (size : Nat) (cs : CallStack) (r : InfoRequest) (level : Int) :
    Option SelectedInfo :=
  (cs.frame? level).map fun fr => s.functionInfo size cs r fr.callee (some (fr, level.toNat))

/-- The description of a function, with its innermost call if it is running. -/
def infoOfFunction (s : Store) (size : Nat) (cs : CallStack) (r : InfoRequest) (f : FunctionId) :
    SelectedInfo :=
  s.functionInfo size cs r f (cs.findCall? f)

end Store

end ScriptDebug
