import ScriptDebug.Proofs.Reflection.Traceback

/-!
# Descriptions of running functions

A function that runs is described as its innermost call is.  The stack is searched for that
call, read at its level, and searched once more for the lines of all calls of the function;
all three see the same levels.  A function that does not run has no line, no name and no
active lines, and nothing else in its description depends on calls.

## Implementation notes

`levelsOf` lists the levels of a function by asking each level for its call.  The search for
the innermost call and the list of active lines are both told from it.
-/

namespace ScriptDebug

namespace CallStack

/-- The call at a level is of function `f`. -/
def runsAt (cs : CallStack) (f : FunctionId) (n : Nat) : Bool :=
  (cs.frame? n).any fun fr => fr.callee == f

/-- The levels of the calls of a function, innermost first. -/
def levelsOf (cs : CallStack) (f : FunctionId) : List Nat :=
  (List.range' 1 cs.depth).filter (cs.runsAt f)

variable {cs : CallStack} {l : List Frame} {f g : FunctionId} {fr : Frame} {n : Nat}

/-- A call is of one function only, whatever prototype others share with it. -/
theorem not_mem_levelsOf_of_ne (hne : g ≠ f) (hn : n ∈ cs.levelsOf f) : n ∉ cs.levelsOf g := by
  intro hn'
  have hf := (List.mem_filter.mp hn).2
  have hg := (List.mem_filter.mp hn').2
  unfold runsAt at hf hg
  cases hfr : cs.frame? n with
  | none => simp [hfr] at hf
  | some fr =>
    simp only [hfr, Option.any_some, beq_iff_eq] at hf hg
    exact hne (hg.symm.trans hf)

namespace Represents

theorem runsAt_of_mem_levels (h : cs.Represents l) (hmem : (fr, n) ∈ cs.levels) :
    cs.runsAt f n = (fr.callee == f) := by
  rw [runsAt, h.frame?_of_mem_levels hmem, Option.any_some]

/-- The levels of a function are those of its calls in the list of all calls. -/
theorem levelsOf_eq (h : cs.Represents l) (f : FunctionId) :
    cs.levelsOf f = (cs.levels.filter fun e => e.1.callee == f).map Prod.snd := by
  rw [levelsOf, ← h.levels_numbers, List.filter_map]
  congr 1
  apply List.filter_congr
  rintro ⟨fr, n⟩ hmem
  exact h.runsAt_of_mem_levels hmem

/-- The innermost call that the search finds is at the first level of the function. -/
theorem head?_levelsOf (h : cs.Represents l) (f : FunctionId) :
    (cs.levelsOf f).head? = (cs.findCall? f).map Prod.snd := by
  rw [h.levelsOf_eq, List.head?_map, List.head?_filter]
  rfl

theorem frame?_of_findCall? (h : cs.Represents l) (hfind : cs.findCall? f = some (fr, n)) :
    cs.frame? n = some fr ∧ fr.callee = f := by
  unfold findCall? at hfind
  have hcallee := List.find?_some hfind
  exact ⟨h.frame?_of_mem_levels (List.mem_of_find?_eq_some hfind), beq_iff_eq.mp hcallee⟩

/-- What is read off the calls of a function can be read off their levels. -/
theorem map_calls_eq {α : Type} (h : cs.Represents l) (f : FunctionId) (read : Frame → α)
    (readAt : Nat → α) (hread : ∀ fr (n : Nat), cs.frame? n = some fr → readAt n = read fr) :
    (cs.frames.filter fun fr => fr.callee == f).map read = (cs.levelsOf f).map readAt := by
  have hframes : cs.frames = cs.levels.map Prod.fst := by
    rw [h.frames_eq, h.shows.levels_calls]
  rw [hframes, h.levelsOf_eq, List.filter_map, List.map_map, List.map_map]
  apply List.map_congr_left
  rintro ⟨fr, n⟩ hmem
  exact (hread fr n (h.frame?_of_mem_levels (List.mem_filter.mp hmem).1)).symm

end Represents

end CallStack

namespace Store

variable {cs : CallStack} {l : List Frame} {f : FunctionId} {fr : Frame} {n : Nat}

/-- The level of the innermost call has the description of the function. -/
theorem infoAtLevel?_of_findCall? (s : Store) (size : Nat) (h : cs.Represents l)
    (r : InfoRequest) (hfind : cs.findCall? f = some (fr, n)) :
    s.infoAtLevel? size cs r n = some (s.infoOfFunction size cs r f) := by
  obtain ⟨hfr, rfl⟩ := h.frame?_of_findCall? hfind
  rw [infoAtLevel?, hfr, Option.map_some, infoOfFunction, hfind, Int.toNat_natCast]

end Store

namespace Machine

variable {m : Machine} {th : ThreadId} {l : List Frame} {f : FunctionId}

/-- The line of the call at a level, if it is known. -/
def lineAt? (m : Machine) (th : ThreadId) (n : Nat) : Option Nat :=
  ((m.calls th).frame? n).bind fun fr => fr.line? m.store

/-- The groups of the description of a function on a thread. -/
def functionRecord (m : Machine) (th : ThreadId) (r : InfoRequest) (f : FunctionId) :
    SelectedInfo :=
  m.store.infoOfFunction m.settings.sourceSize (m.calls th) r f

variable {r : InfoRequest}

theorem getInfo?_function (m : Machine) (th : ThreadId) (f : FunctionId) (what : String) :
    m.getInfo? th (.function f) what = some (m.functionRecord th (.ofString what) f) := rfl

/-- The level of the innermost call has the same description, in every group. -/
theorem getInfo?_level_of_head? (h : (m.calls th).Represents l) (what : String) {n : Nat}
    (hn : ((m.calls th).levelsOf f).head? = some n) :
    m.getInfo? th (.level n) what = some (m.functionRecord th (.ofString what) f) := by
  rw [h.head?_levelsOf, Option.map_eq_some_iff] at hn
  obtain ⟨⟨fr, n⟩, hfind, rfl⟩ := hn
  exact m.store.infoAtLevel?_of_findCall? _ h _ hfind

/-- The active lines that are asked for are those of the levels of the function. -/
theorem functionRecord_activeLines (h : (m.calls th).Represents l) (f : FunctionId) :
    (m.functionRecord th r f).activeLines =
      if r.activeLines then some (((m.calls th).levelsOf f).map (m.lineAt? th)) else none := by
  have hlines : m.store.activeLines (m.calls th) f =
      ((m.calls th).levelsOf f).map (m.lineAt? th) := by
    apply h.map_calls_eq
    intro fr n hfr
    rw [lineAt?, hfr, Option.bind_some]
  rw [← hlines]
  rfl

/-- The current line that is asked for is the line of the first level, if there is one. -/
theorem functionRecord_currentLine (h : (m.calls th).Represents l) (f : FunctionId) :
    (m.functionRecord th r f).currentLine =
      if r.currentLine then some (((m.calls th).levelsOf f).head?.bind (m.lineAt? th))
      else none := by
  rw [h.head?_levelsOf]
  simp only [functionRecord, Store.infoOfFunction, Store.functionInfo]
  cases hfind : (m.calls th).findCall? f with
  | none => rfl
  | some e =>
    obtain ⟨fr, n⟩ := e
    rw [Option.map_some, Option.bind_some, Option.bind_some, lineAt?,
      (h.frame?_of_findCall? hfind).1, Option.bind_some]

/-- A function that does not run has no name. -/
theorem functionRecord_name_of_idle (h : (m.calls th).Represents l)
    (hidle : (m.calls th).levelsOf f = []) :
    (m.functionRecord th r f).name = if r.name then some none else none := by
  have hfind : (m.calls th).findCall? f = none := by
    rw [← Option.map_eq_none_iff (f := Prod.snd), ← h.head?_levelsOf, hidle, List.head?_nil]
  simp only [functionRecord, Store.infoOfFunction, Store.functionInfo, hfind, Option.bind_none]

/-- The description of a function is that of its innermost call, in every group.  Where the
function does not run its line is reported as -1, it has no name and no active lines, and
the other groups are as on any thread, whatever runs there.  In both cases there is one
active line for every level that runs the function, innermost first, the first one being the
current line, and a level counts for one function only.  Every stack that operations leave
represents a list of calls (`CallStack.run_represents`). -/
theorem function_described_as_innermost_call (h : (m.calls th).Represents l) (f : FunctionId)
    (what : String) :
    let levels := (m.calls th).levelsOf f
    let r := InfoRequest.ofString what
    ∃ info, m.getInfo? th (.function f) what = some info ∧
      (∀ n, levels.head? = some n → m.getInfo? th (.level n) what = some info) ∧
      (levels = [] →
        info.currentLine.map lineNumber = (if r.currentLine then some (-1) else none) ∧
        info.name = (if r.name then some none else none) ∧
        info.activeLines = (if r.activeLines then some [] else none) ∧
        ∀ (m' : Machine) th' info', m'.store = m.store → m'.settings = m.settings →
          m'.getInfo? th' (.function f) what = some info' →
          info'.source = info.source ∧ info'.upvalues = info.upvalues ∧
            info'.isTailCall = info.isTailCall ∧ info'.function = info.function) ∧
      info.activeLines.map (List.map lineNumber) =
        (if r.activeLines then some (levels.map fun n => lineNumber (m.lineAt? th n)) else none) ∧
      (∀ line lines, info.currentLine = some line → info.activeLines = some lines →
        lines ≠ [] → lines.head? = some line) ∧
      ∀ g, g ≠ f → ∀ n ∈ levels, n ∉ (m.calls th).levelsOf g := by
  intro levels r
  have hlines : (m.functionRecord th r f).activeLines =
      if r.activeLines then some (levels.map (m.lineAt? th)) else none :=
    functionRecord_activeLines h f
  have hline : (m.functionRecord th r f).currentLine =
      if r.currentLine then some (levels.head?.bind (m.lineAt? th)) else none :=
    functionRecord_currentLine h f
  refine ⟨_, getInfo?_function m th f what, fun n hn => getInfo?_level_of_head? h what hn,
    fun hidle => ⟨?_, ?_, ?_, ?_⟩, ?_, ?_, fun g hg n hn => CallStack.not_mem_levelsOf_of_ne hg hn⟩
  · rw [hline, hidle]
    split <;> rfl
  · exact functionRecord_name_of_idle h hidle
  · rw [hlines, hidle]
    rfl
  · intro m' th' info' hstore hsettings hinfo
    cases hinfo
    simp only [functionRecord, Store.infoOfFunction, Store.functionInfo, hstore, hsettings,
      and_self]
  · rw [hlines]
    cases r.activeLines with
    | false => rfl
    | true => simp only [if_pos, Option.map_some, List.map_map, Function.comp_def]
  · intro line lines hcurrent hactive hne
    rw [hline, Option.ite_none_right_eq_some] at hcurrent
    rw [hlines, Option.ite_none_right_eq_some] at hactive
    obtain ⟨-, ⟨⟩⟩ := hcurrent
    obtain ⟨-, ⟨⟩⟩ := hactive
    cases hlevels : levels with
    | nil => exact absurd (by rw [hlevels, List.map_nil]) hne
    | cons n rest => rfl

/-- Two functions with one prototype; the first called the second, which called the first
again. -/
def mutualMachine : Machine :=
  let p : Prototype :=
    ⟨some "@t.lua", 1, 3, 0, false, 1, #[.ofABC .call 0 1 1, .ofABC .ret 0 1 0], #[2, 3], #[], [], #[]⟩
  let stack := ((CallStack.empty.push ⟨⟨0⟩, 1, 1, [], some ⟨0⟩⟩).push ⟨⟨1⟩, 0, 1, [], some ⟨1⟩⟩).push
    ⟨⟨0⟩, 0, 1, [], some ⟨2⟩⟩
  let start := (Machine.new .default false).setThread mainThread ⟨some stack, .initial⟩
  { start with
    store := { start.store with
      functions := #[⟨.script p #[], .scripted "f" []⟩, ⟨.script p #[], .scripted "g" []⟩]
      windows := #[#[.nil], #[.nil], #[.nil]] } }

/-- The first function is described as the call at level 1 is, and the call of the second is
none of its active ones. -/
theorem mutual_function_described :
    (∃ l, (mutualMachine.calls mainThread).Represents l) ∧
      (mutualMachine.calls mainThread).levelsOf ⟨0⟩ = [1, 3] ∧
      2 ∉ (mutualMachine.calls mainThread).levelsOf ⟨0⟩ ∧
      ∃ info, mutualMachine.getInfo? mainThread (.function ⟨0⟩) "lL" = some info ∧
        mutualMachine.getInfo? mainThread (.level 1) "lL" = some info ∧
        info.activeLines.map (List.map lineNumber) = some [2, 3] ∧
        ∀ line, info.currentLine = some line → lineNumber line = 2 := by
  have hcalls : (mutualMachine.calls mainThread).Represents
      [⟨⟨0⟩, 0, 1, [], some ⟨2⟩⟩, ⟨⟨1⟩, 0, 1, [], some ⟨1⟩⟩, ⟨⟨0⟩, 1, 1, [], some ⟨0⟩⟩] :=
    ((CallStack.Represents.empty.push _).push _).push _
  have hlevels : (mutualMachine.calls mainThread).levelsOf ⟨0⟩ = [1, 3] := by decide +kernel
  obtain ⟨info, hinfo, hlevel, -, hactive, hfirst, -⟩ :=
    function_described_as_innermost_call hcalls ⟨0⟩ "lL"
  obtain ⟨-, -, -, -, -, hother⟩ :=
    (function_described_as_innermost_call hcalls ⟨1⟩ "lL").choose_spec
  have htwo : 2 ∈ (mutualMachine.calls mainThread).levelsOf ⟨1⟩ := by decide +kernel
  have hlines : info.activeLines.map (List.map lineNumber) = some [2, 3] := by
    rw [hactive, hlevels]
    decide +kernel
  refine ⟨⟨_, hcalls⟩, hlevels, hother ⟨0⟩ (by decide) 2 htwo, info, hinfo, ?_, hlines, ?_⟩
  · exact hlevel 1 (by rw [hlevels]; rfl)
  · intro line hline
    obtain ⟨lines, hsome, hmap⟩ := Option.map_eq_some_iff.mp hlines
    cases lines with
    | nil => cases hmap
    | cons first rest =>
      obtain rfl := Option.some.inj (hfirst line _ hline hsome (by simp))
      exact (List.cons.inj hmap).1

end Machine

end ScriptDebug
