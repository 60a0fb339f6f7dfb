import ScriptDebug.Machine.Reflection
import ScriptDebug.Proofs.CallStack.Pushed

/-!
# Tracebacks and descriptions

A traceback and the descriptions of the calls at its levels tell the same story.  Each
entry can be told from the source, the name and the line in the description of its level,
so it is the same in every traceback, and a traceback from one level further in has one
entry more.

## Implementation notes

`callEntry` is the entry as the description determines it: it sees the kind of a function
and its short source, but neither its prototype nor the call stack.
-/

namespace ScriptDebug

/-- The line of a call in its entry, the line -1 being unknown. -/
def shownLine (line : Int) : String := if line = -1 then "" else line.repr ++ ":"

/-- What an entry calls a script function. -/
def shownFunction (source : SourceInfo) : Option SymbolicName → String
  | some name => "function '" ++ name.name ++ "'"
  | none => "function <" ++ source.shortSource ++ ":" ++
      (lineNumber source.lineDefined).repr ++ ">"

/-- The entry of a call with the given source, name and line. -/
def callEntry (source : SourceInfo) (name : Option SymbolicName) (line : Int) : String :=
  match source.kind with
  | .native => "\n\t" ++ nativeShortSource ++ ": in function '" ++
      (name.map (·.name)).getD source.shortSource ++ "'"
  | .main => "\n\t" ++ source.shortSource ++ ":" ++ shownLine line ++ " in " ++ "main chunk"
  | .script => "\n\t" ++ source.shortSource ++ ":" ++ shownLine line ++ " in " ++
      shownFunction source name

/-- The entry that a description determines, if it tells enough. -/
def SelectedInfo.entryText? (info : SelectedInfo) : Option String := do
  let source ← info.source
  let name ← info.name
  let line ← info.currentLine
  return callEntry source name (lineNumber line)

/-- The letters that ask for all that an entry needs. -/
def entryLetters : String := "Snl"

/-- What a traceback starts with. -/
def tracebackOpening : Option String → String
  | some message => message ++ "\n" ++ "stack traceback:"
  | none => "stack traceback:"

/-- What a traceback ends with. -/
def tracebackEnd : String := "\n\t" ++ nativeShortSource ++ ": in ?"

namespace CallStack

namespace Represents

variable {cs : CallStack} {l : List Frame}

theorem levels_numbers (h : cs.Represents l) :
    cs.levels.map Prod.snd = List.range' 1 cs.depth := by
  rw [h.shows.levels_numbers, h.depth_eq]

theorem frame?_of_mem_levels (h : cs.Represents l) {fr : Frame} {n : Nat}
    (hmem : (fr, n) ∈ cs.levels) : cs.frame? n = some fr := by
  rw [levels, h.frames_eq] at hmem
  obtain ⟨hlow, hhigh, hfr⟩ := List.mem_zipIdx hmem
  rw [h.frame?_eq, if_pos (by omega), Int.toNat_natCast, List.getElem?_eq_getElem (by omega), hfr]

/-- There is a call at every level from 1 to the depth. -/
theorem exists_frame? (h : cs.Represents l) {n : Nat} (hlow : 1 ≤ n) (hhigh : n ≤ cs.depth) :
    ∃ fr, cs.frame? n = some fr := by
  rw [h.depth_eq] at hhigh
  rw [h.frame?_eq, if_pos (by omega), Int.toNat_natCast]
  exact ⟨_, List.getElem?_eq_getElem (by omega)⟩

end Represents

end CallStack

namespace Store

theorem shownLine_lineNumber (line : Option Nat) :
    shownLine (lineNumber line) = match line with
      | some n => n.repr ++ ":"
      | none => "" := by
  cases line with
  | none => rfl
  | some n => exact if_neg (by simp [lineNumber])

/-- The entry of a call can be told from what descriptions say of it. -/
theorem traceEntry_eq_callEntry (s : Store) (size : Nat) (fr : Frame)
    (name : Option SymbolicName) :
    s.traceEntry size fr name =
      callEntry (s.sourceInfo size fr.callee) name (lineNumber (fr.line? s)) := by
  unfold traceEntry sourceInfo callEntry
  rw [shownLine_lineNumber]
  unfold Frame.prototype?
  cases s.prototype? fr.callee with
  | none =>
    cases name with
    | none => rfl
    | some name => rfl
  | some p =>
    dsimp only
    cases p.isMain with
    | true => rfl
    | false =>
      cases name with
      | none => rfl
      | some name => rfl

end Store

namespace Machine

variable {m : Machine} {th : ThreadId} {l : List Frame} {fr : Frame} {n : Nat}

/-- The description of a call with the groups that an entry needs. -/
def entryInfo (m : Machine) (th : ThreadId) (fr : Frame) (n : Nat) : SelectedInfo where
  source := some (m.store.sourceInfo m.settings.sourceSize fr.callee)
  currentLine := some (fr.line? m.store)
  upvalues := none
  name := some (m.store.callName? (m.calls th) n)
  isTailCall := none
  activeLines := none
  function := none

theorem getInfo?_of_frame? (hfr : (m.calls th).frame? n = some fr) :
    m.getInfo? th (.level n) entryLetters = some (m.entryInfo th fr n) := by
  simp only [getInfo?, Store.infoAtLevel?, hfr, Option.map_some, Int.toNat_natCast]
  rfl

/-- The entry that the description of the call at a level determines. -/
def entryAt (m : Machine) (th : ThreadId) (n : Nat) : String :=
  ((m.getInfo? th (.level n) entryLetters).bind (·.entryText?)).getD ""

theorem entryAt_of_frame? (hfr : (m.calls th).frame? n = some fr) : m.entryAt th n =
    m.store.traceEntry m.settings.sourceSize fr (m.store.callName? (m.calls th) n) := by
  rw [entryAt, getInfo?_of_frame? hfr, Store.traceEntry_eq_callEntry]
  rfl

/-- The levels from one to the outermost. -/
def levelsFrom (m : Machine) (th : ThreadId) (level : Int) : List Nat :=
  List.range' (max level 1).toNat (m.depth th + 1 - (max level 1).toNat)

/-- The entries of a traceback are those of its levels. -/
theorem traceEntries_eq (h : (m.calls th).Represents l) (level : Int) :
    m.store.traceEntries m.settings.sourceSize (m.calls th) level =
      (m.levelsFrom th level).map (m.entryAt th) := by
  have hcount : m.depth th - ((max level 1).toNat - 1) = m.depth th + 1 - (max level 1).toNat := by
    omega
  have hfirst : 1 + ((max level 1).toNat - 1) = (max level 1).toNat := by omega
  calc
    m.store.traceEntries m.settings.sourceSize (m.calls th) level =
        ((m.calls th).levels.drop ((max level 1).toNat - 1)).map
          (fun entry => m.entryAt th entry.2) := by
      apply List.map_congr_left
      rintro ⟨fr, n⟩ hmem
      exact (entryAt_of_frame? (h.frame?_of_mem_levels (List.mem_of_mem_drop hmem))).symm
    _ = (((m.calls th).levels.map Prod.snd).drop ((max level 1).toNat - 1)).map
          (m.entryAt th) := by
      rw [← List.map_drop, List.map_map]
      rfl
    _ = (m.levelsFrom th level).map (m.entryAt th) := by
      rw [h.levels_numbers, List.drop_range', Nat.mul_one, hfirst, levelsFrom, ← hcount]
      rfl

theorem traceback_eq (h : (m.calls th).Represents l) (message : Option String) (level : Int) :
    m.traceback th message level = tracebackOpening message ++
      String.join ((m.levelsFrom th level).map (m.entryAt th)) ++ tracebackEnd := by
  unfold Machine.traceback Store.traceback
  rw [traceEntries_eq h]
  cases message with
  | none => simp only [tracebackOpening, tracebackEnd, String.append_assoc, String.empty_append]
  | some text => simp only [tracebackOpening, tracebackEnd, String.append_assoc]

theorem levelsFrom_of_le {n : Nat} (hlow : 1 ≤ n) (hhigh : n ≤ m.depth th) :
    m.levelsFrom th n = n :: m.levelsFrom th (n + 1 : Nat) := by
  have hfirst : (max (n : Int) 1).toNat = n := by omega
  have hsecond : (max ((n + 1 : Nat) : Int) 1).toNat = n + 1 := by omega
  have hcount : m.depth th + 1 - n = m.depth th + 1 - (n + 1) + 1 := by omega
  rw [levelsFrom, levelsFrom, hfirst, hsecond, hcount, List.range'_succ]

/-- A traceback from a level has the entry of that level before those of the next. -/
theorem traceback_level (h : (m.calls th).Represents l) (message : Option String) {n : Nat}
    (hlow : 1 ≤ n) (hhigh : n ≤ m.depth th) : ∃ rest,
      m.traceback th message (n + 1 : Nat) = tracebackOpening message ++ rest ∧
      m.traceback th message n = tracebackOpening message ++ m.entryAt th n ++ rest := by
  refine ⟨String.join ((m.levelsFrom th (n + 1 : Nat)).map (m.entryAt th)) ++ tracebackEnd,
    ?_, ?_⟩
  · rw [traceback_eq h, String.append_assoc]
  · rw [traceback_eq h, levelsFrom_of_le hlow hhigh, List.map_cons, String.join_cons]
    simp only [String.append_assoc]

/-- A traceback is its opening, one entry for each level from where it starts to the
outermost, in this order, and its end.  The entry of a level is what the source, the name
and the line in the description of that level determine, wherever the traceback starts.  So
a traceback from one level further in has one more entry, after the opening.  Every stack
that operations leave represents a list of calls (`CallStack.run_represents`). -/
theorem traceback_tells_descriptions (h : (m.calls th).Represents l) :
    (∀ n : Nat, 1 ≤ n → n ≤ m.depth th → ∃ info,
      m.getInfo? th (.level n) entryLetters = some info ∧ info.entryText? = some (m.entryAt th n)) ∧
    (∀ message level, m.traceback th message level = tracebackOpening message ++
      String.join ((m.levelsFrom th level).map (m.entryAt th)) ++ tracebackEnd) ∧
    ∀ message (n : Nat), 1 ≤ n → n ≤ m.depth th → ∃ rest,
      m.traceback th message (n + 1 : Nat) = tracebackOpening message ++ rest ∧
      m.traceback th message n = tracebackOpening message ++ m.entryAt th n ++ rest := by
  refine ⟨fun n hlow hhigh => ?_, fun message level => traceback_eq h message level,
    fun message n hlow hhigh => traceback_level h message hlow hhigh⟩
  obtain ⟨fr, hfr⟩ := h.exists_frame? hlow hhigh
  refine ⟨m.entryInfo th fr n, getInfo?_of_frame? hfr, ?_⟩
  rw [entryAt, getInfo?_of_frame? hfr]
  rfl

/-- A main chunk that adds, on line 7, and so calls a native function. -/
def addingMachine : Machine :=
  let p : Prototype := ⟨some "@main.lua", 0, 0, 0, true, 2, #[.ofABC .add 0 0 1], #[7], #[], [], #[]⟩
  let stack := (CallStack.empty.push (.script ⟨1⟩ [] ⟨0⟩ 2)).push (.bare ⟨0⟩)
  let start := (Machine.new .default false).setThread mainThread ⟨some stack, .initial⟩
  { start with
    store := { start.store with
      functions := #[⟨.native "plus", .scripted "plus" []⟩, ⟨.script p #[], .scripted "main" []⟩]
      windows := #[#[.nil, .nil]] } }

/-- The native call comes first, under the name of the metamethod that its caller gives it. -/
theorem traceback_of_addition :
    (addingMachine.calls mainThread).Represents [.bare ⟨0⟩, .script ⟨1⟩ [] ⟨0⟩ 2] ∧
      ∃ rest, addingMachine.traceback mainThread none 2 = "stack traceback:" ++ rest ∧
        addingMachine.traceback mainThread none 1 =
          "stack traceback:" ++ "\n\t[native]: in function '__add'" ++ rest := by
  have hcalls : (addingMachine.calls mainThread).Represents
      [.bare ⟨0⟩, .script ⟨1⟩ [] ⟨0⟩ 2] :=
    (CallStack.Represents.empty.push (.script ⟨1⟩ [] ⟨0⟩ 2)).push (.bare ⟨0⟩)
  have hentry : addingMachine.entryAt mainThread 1 = "\n\t[native]: in function '__add'" := by
    decide +kernel
  obtain ⟨-, -, hlevel⟩ := traceback_tells_descriptions hcalls
  obtain ⟨rest, houter, hinner⟩ := hlevel none 1 (by decide) (by decide)
  exact ⟨hcalls, rest, houter, hentry ▸ hinner⟩

end Machine

end ScriptDebug
