import Mathlib.Data.List.Flatten
import ScriptDebug.Proofs.Library.LevelQuery
import ScriptDebug.Proofs.Table.Filled

/-!
# Descriptions as tables

What a request of some letters gets is what a request of all letters gets, less the groups
whose letters are missing.  A script gets it as a new table, whose keys are those of the
groups that are left and nothing else; the active lines are a list in another new table.

## Implementation notes

`FunctionInfo.groups` says which fields each group has, under the letter that asks for it.
The table is told from the fields alone: they are written under distinct names and none of
them is nil, so each of them can be read back and there are no others.
-/

namespace ScriptDebug

/-! ## Groups -/

/-- The letters that ask for every group. -/
def InfoRequest.allLetters : String := "SlunLtf"

/-- A line as scripts see it. -/
def Value.ofLine (line : Option Nat) : Value := .integer (Int64.ofInt (lineNumber line))

/-- Everything that there is to tell about a function or a call. -/
structure FunctionInfo where
  source : SourceInfo
  currentLine : Option Nat
  upvalues : UpvalueInfo
  name : Option SymbolicName
  isTailCall : Bool
  activeLines : List (Option Nat)
  function : FunctionId

/-- A description without the groups whose letters do not occur in a text. -/
def SelectedInfo.restrict (info : SelectedInfo) (what : String) : SelectedInfo where
  source := if 'S' ∈ what.toList then info.source else none
  currentLine := if 'l' ∈ what.toList then info.currentLine else none
  upvalues := if 'u' ∈ what.toList then info.upvalues else none
  name := if 'n' ∈ what.toList then info.name else none
  isTailCall := if 't' ∈ what.toList then info.isTailCall else none
  activeLines := if 'L' ∈ what.toList then info.activeLines else none
  function := if 'f' ∈ what.toList then info.function else none

namespace FunctionInfo

/-- A description with all of its groups. -/
def complete (info : FunctionInfo) : SelectedInfo where
  source := some info.source
  currentLine := some info.currentLine
  upvalues := some info.upvalues
  name := some info.name
  isTailCall := some info.isTailCall
  activeLines := some info.activeLines
  function := some info.function

/-- The fields of each group under the letter that asks for it, `list` being the table of the
active lines. -/
def groups (info : FunctionInfo) (list : TableId) : List (Char × List (String × Value)) :=
  let number (n : Nat) : Value := .integer (Int64.ofInt n)
  [('S', [("what", .string info.source.kind.text), ("source", .string info.source.source),
      ("short_src", .string info.source.shortSource),
      ("linedefined", .ofLine info.source.lineDefined),
      ("lastlinedefined", .ofLine info.source.lastLineDefined)]),
    ('l', [("currentline", .ofLine info.currentLine)]),
    ('u', [("nups", number info.upvalues.upvalueCount),
      ("nparams", number info.upvalues.paramCount),
      ("isvararg", .boolean info.upvalues.isVararg)]),
    ('n', [("name", .string ((info.name.map (·.name)).getD "?")),
      ("namewhat", .string ((info.name.map (·.kind.text)).getD ""))]),
    ('t', [("istailcall", .boolean info.isTailCall)]),
    ('f', [("func", .function info.function)]),
    ('L', [("activelines", .table list)])]

/-- The fields of the groups whose letters occur in a text. -/
def fieldsFor (info : FunctionInfo) (list : TableId) (what : String) : List (String × Value) :=
  (info.groups list).flatMap fun g => if g.1 ∈ what.toList then g.2 else []

theorem restrict_allLetters (info : FunctionInfo) :
    info.complete.restrict InfoRequest.allLetters = info.complete := by
  simp [SelectedInfo.restrict, InfoRequest.allLetters, complete]

/-- All fields have different names, whichever of them are asked for. -/
theorem nodup_fieldsFor (info : FunctionInfo) (list : TableId) (what : String) :
    ((info.fieldsFor list what).map Prod.fst).Nodup := by
  have hall : (((info.groups list).flatMap Prod.snd).map Prod.fst).Nodup := by
    simp only [groups, List.flatMap_cons, List.flatMap_nil, List.map_append, List.map_cons,
      List.map_nil]
    decide
  refine hall.sublist ((List.Sublist.flatMap_right _ ?_).map Prod.fst)
  intro g _
  split
  · exact List.Sublist.refl _
  · exact List.nil_sublist _

/-- The fields that are written are those of the groups that are asked for. -/
theorem fields_restrict (info : FunctionInfo) (list : TableId) (what : String) :
    (info.complete.restrict what).fields ++
        (if 'L' ∈ what.toList then [(SelectedInfo.activeLinesKey, .table list)] else []) =
      info.fieldsFor list what := by
  simp only [fieldsFor, groups, List.flatMap_cons, List.flatMap_nil, List.append_nil,
    SelectedInfo.fields, List.append_assoc]
  refine congrArg₂ (· ++ ·) ?_ (congrArg₂ (· ++ ·) ?_ (congrArg₂ (· ++ ·) ?_
    (congrArg₂ (· ++ ·) ?_ (congrArg₂ (· ++ ·) ?_ (congrArg₂ (· ++ ·) ?_ rfl)))))
  · by_cases hS : 'S' ∈ what.toList <;> simp only [SelectedInfo.restrict, hS] <;> rfl
  · by_cases hl : 'l' ∈ what.toList <;> simp only [SelectedInfo.restrict, hl] <;> rfl
  · by_cases hu : 'u' ∈ what.toList <;> simp only [SelectedInfo.restrict, hu] <;> rfl
  · by_cases hn : 'n' ∈ what.toList
    · cases hname : info.name <;> simp only [SelectedInfo.restrict, complete, hn, hname] <;> rfl
    · simp only [SelectedInfo.restrict, hn]
      rfl
  · by_cases ht : 't' ∈ what.toList <;> simp only [SelectedInfo.restrict, ht] <;> rfl
  · by_cases hf : 'f' ∈ what.toList <;> simp only [SelectedInfo.restrict, hf] <;> rfl

end FunctionInfo

/-! ## Tables in the store -/

namespace Store

variable {what : String}

/-- Everything about a function, given the call of it that is meant. -/
def fullInfo (s : Store) (size : Nat) (cs : CallStack) (f : FunctionId)
    (call : Option (Frame × Nat)) : FunctionInfo where
  source := s.sourceInfo size f
  currentLine := call.bind fun (fr, _) => fr.line? s
  upvalues := s.upvalueInfo f
  name := call.bind fun (_, level) => s.callName? cs level
  isTailCall := false
  activeLines := s.activeLines cs f
  function := f

/-- A description has the groups whose letters occur in the request. -/
theorem functionInfo_ofString (s : Store) (size : Nat) (cs : CallStack) (what : String)
    (f : FunctionId) (call : Option (Frame × Nat)) :
    s.functionInfo size cs (.ofString what) f call =
      (s.fullInfo size cs f call).complete.restrict what := by
  simp only [functionInfo, InfoRequest.ofString_eq, List.contains_eq_mem, decide_eq_true_eq,
    SelectedInfo.restrict, FunctionInfo.complete, fullInfo]

theorem setFields_cons (s : Store) (t : TableId) (f : String × Value)
    (fields : List (String × Value)) :
    s.setFields t (f :: fields) = (s.setField t f.1 f.2).setFields t fields := rfl

/-- Storing fields one after the other is one change of the table. -/
theorem table?_setFields (s : Store) (t : TableId) (fields : List (String × Value))
    (t' : TableId) : (s.setFields t fields).table? t' =
      if t' = t then (s.table? t').map (·.performAll (Table.fieldWrites fields))
      else s.table? t' := by
  induction fields generalizing s with
  | nil =>
      have hid : (s.table? t').map (·.performAll (Table.fieldWrites [])) = s.table? t' :=
        Option.map_id'
      rw [hid, ite_self]
      rfl
  | cons f fields ih =>
      rw [setFields_cons, ih, setField, table?_modifyTable]
      split
      · rw [Option.map_map]
        rfl
      · rfl

theorem setFields_tables (s : Store) (t : TableId) (fields : List (String × Value)) :
    s.setFields t fields = { s with tables := (s.setFields t fields).tables } := by
  induction fields generalizing s with
  | nil => rfl
  | cons f fields ih => exact ih (s.setField t f.1 f.2)

theorem table?_newTable (s : Store) (t' : TableId) :
    s.newTable.1.table? t' = if t' = s.newTable.2 then some .empty else s.table? t' := by
  obtain ⟨i⟩ := t'
  simp only [newTable, table?, Array.getElem?_push, Handle.mk.injEq]

/-- A new table was not there before. -/
theorem table?_newTable_fresh (s : Store) : s.table? s.newTable.2 = none := by
  simp [newTable, table?]

theorem newInfoTable_of_none {info : SelectedInfo} (h : info.activeLines = none) (s : Store) :
    s.newInfoTable info =
      (s.newTable.1.setFields s.newTable.2 info.fields, s.newTable.2) := by
  simp only [newInfoTable, h]

theorem newInfoTable_of_some {info : SelectedInfo} {lines : List (Option Nat)}
    (h : info.activeLines = some lines) (s : Store) :
    let s' := s.newTable.1
    let list := s'.newTable.2
    s.newInfoTable info =
      ((s'.newTable.1.modifyTable list (SelectedInfo.linesTable lines)).setFields s.newTable.2
        (info.fields ++ [(SelectedInfo.activeLinesKey, .table list)]), s.newTable.2) := by
  simp only [newInfoTable, h]

/-- The table of active lines is a list of them. -/
theorem isList_linesTable (lines : List (Option Nat)) :
    (SelectedInfo.linesTable lines .empty).IsList (lines.map .ofLine) := by
  have hlines : SelectedInfo.linesTable lines .empty = .ofValues (lines.map .ofLine) := by
    rw [SelectedInfo.linesTable, Table.ofValues, List.zipIdx_map, List.foldl_map]
    rfl
  rw [hlines]
  apply Table.isList_ofValues
  intro v hv
  obtain ⟨line, -, rfl⟩ := List.mem_map.mp hv
  exact Value.noConfusion

/-- A store to which a description was added, asked for by letters: a new table `t` that
is a record of the groups, and with the active lines a new table `list` of them. -/
structure DescriptionAdded (info : FunctionInfo) (what : String) (t list : TableId)
    (s s' : Store) : Prop where
  fresh : s.table? t = none
  record : ∃ table, s'.table? t = some table ∧ table.IsRecord (info.fieldsFor list what)
  lines : 'L' ∈ what.toList → s.table? list = none ∧ list ≠ t ∧
    ∃ table, s'.table? list = some table ∧ table.IsList (info.activeLines.map .ofLine)
  others : ∀ t', t' ≠ t → ('L' ∈ what.toList → t' ≠ list) → s'.table? t' = s.table? t'
  tables : s' = { s with tables := s'.tables }

/-- A description without active lines takes one new table. -/
theorem descriptionAdded_of_not_mem (s : Store) (info : FunctionInfo) (list : TableId)
    (hL : 'L' ∉ what.toList) :
    DescriptionAdded info what s.newTable.2 list s
      (s.newTable.1.setFields s.newTable.2 (info.fieldsFor list what)) where
  fresh := s.table?_newTable_fresh
  record := by
    refine ⟨_, ?_, Table.isRecord_fieldWrites (info.nodup_fieldsFor list what)⟩
    rw [table?_setFields, if_pos rfl, table?_newTable, if_pos rfl, Option.map_some]
  lines h := absurd h hL
  others t' ht' _ := by rw [table?_setFields, if_neg ht', table?_newTable, if_neg ht']
  tables := setFields_tables s.newTable.1 _ _

/-- A description with active lines takes two new tables. -/
theorem descriptionAdded_of_mem (s : Store) (info : FunctionInfo) (hL : 'L' ∈ what.toList) :
    let s' := s.newTable.1
    let list := s'.newTable.2
    DescriptionAdded info what s.newTable.2 list s
      ((s'.newTable.1.modifyTable list (SelectedInfo.linesTable info.activeLines)).setFields
        s.newTable.2 (info.fieldsFor list what)) := by
  intro s' list
  have hlist : s'.table? list = none := s'.table?_newTable_fresh
  have ht : s'.table? s.newTable.2 = some .empty := by rw [table?_newTable, if_pos rfl]
  have hne : list ≠ s.newTable.2 := by
    intro heq
    rw [heq, ht] at hlist
    cases hlist
  refine ⟨s.table?_newTable_fresh, ?_, fun _ => ⟨?_, hne, ?_⟩, ?_, ?_⟩
  · refine ⟨_, ?_, Table.isRecord_fieldWrites (info.nodup_fieldsFor list what)⟩
    rw [table?_setFields, if_pos rfl, table?_modifyTable, if_neg hne.symm, table?_newTable,
      if_neg hne.symm, ht, Option.map_some]
  · rw [table?_newTable, if_neg hne] at hlist
    exact hlist
  · refine ⟨_, ?_, isList_linesTable info.activeLines⟩
    rw [table?_setFields, if_neg hne, table?_modifyTable, if_pos rfl, table?_newTable, if_pos rfl,
      Option.map_some]
  · intro t' ht' hlist'
    rw [table?_setFields, if_neg ht', table?_modifyTable, if_neg (hlist' hL), table?_newTable,
      if_neg (hlist' hL), table?_newTable, if_neg ht']
  · exact setFields_tables (s'.newTable.1.modifyTable list _) _ _

theorem newInfoTable_adds (s : Store) (info : FunctionInfo) (what : String) :
    ∃ list, DescriptionAdded info what (s.newInfoTable (info.complete.restrict what)).2 list s
      (s.newInfoTable (info.complete.restrict what)).1 := by
  have hfields := fun list => info.fields_restrict list what
  by_cases hL : 'L' ∈ what.toList
  · simp only [if_pos hL] at hfields
    have hactive : (info.complete.restrict what).activeLines = some info.activeLines := if_pos hL
    rw [newInfoTable_of_some hactive, hfields]
    exact ⟨_, s.descriptionAdded_of_mem info hL⟩
  · simp only [if_neg hL, List.append_nil] at hfields
    have hactive : (info.complete.restrict what).activeLines = none := if_neg hL
    rw [newInfoTable_of_none hactive, hfields s.newTable.2]
    exact ⟨_, s.descriptionAdded_of_not_mem info s.newTable.2 hL⟩

end Store

/-! ## What is asked for -/

namespace Machine

variable {m : Machine} {th current : ThreadId} {args : List Value} {a : Arguments}
  {target : InfoTarget} {what : String}

/-- Everything there is to tell about a level or a function. -/
def record? (m : Machine) (th : ThreadId) (target : InfoTarget) : Option FunctionInfo :=
  let cs := m.calls th
  let full := m.store.fullInfo m.settings.sourceSize cs
  match target with
  | .level n => (cs.frame? n).map fun fr => full fr.callee (some (fr, n.toNat))
  | .function f => some (full f (cs.findCall? f))

/-- Letters leave of a description what they ask for. -/
theorem getInfo?_eq_restrict (m : Machine) (th : ThreadId) (target : InfoTarget) (what : String) :
    m.getInfo? th target what = (m.record? th target).map (·.complete.restrict what) := by
  cases target with
  | level n =>
    simp only [getInfo?, Store.infoAtLevel?, Store.functionInfo_ofString, record?, Option.map_map,
      Function.comp_def]
  | function f =>
    simp only [getInfo?, Store.infoOfFunction, Store.functionInfo_ofString, record?,
      Option.map_some]

theorem getInfo?_allLetters (m : Machine) (th : ThreadId) (target : InfoTarget) :
    m.getInfo? th target InfoRequest.allLetters = (m.record? th target).map (·.complete) := by
  simp only [getInfo?_eq_restrict, FunctionInfo.restrict_allLetters]

/-- Only a level can be missing. -/
theorem record?_eq_none_iff : m.record? th target = none ↔
    ∃ n, target = .level n ∧ (m.calls th).frame? n = none := by
  cases target with
  | level n => simp [record?]
  | function f => simp [record?]

/-- The arguments are a level or a function and letters, after an optional thread. -/
theorem libGetInfo_of_arguments
    (hargs : Arguments.ofValues m current LibraryFunction.getInfo.name args = .ok a)
    (htarget : targetArgument m current LibraryFunction.getInfo.name a 0 = .ok target)
    (hwhat : RequestLetters (a.get 1) what) :
    m.libGetInfo current args = .ok (m.infoResults a.thread target what) := by
  generalize hv : a.get 1 = v at hwhat
  simp only [libGetInfo, hargs, htarget, hv, bind, Except.bind]
  cases hwhat <;> rfl

theorem infoResults_of_record? {info : FunctionInfo} (h : m.record? th target = some info)
    (what : String) : m.infoResults th target what =
      let (store, t) := m.store.newInfoTable (info.complete.restrict what)
      ([.table t], { m with store }) := by
  simp only [infoResults, getInfo?_eq_restrict, h, Option.map_some]

theorem infoResults_of_absent (h : m.record? th target = none) (what : String) :
    m.infoResults th target what = ([], m) := by
  simp only [infoResults, getInfo?_eq_restrict, h, Option.map_none]

/-- The letters of a request take their groups from one description, whatever else occurs in
them, in which order and how often.  The script gets a new table with the fields of these
groups as its keys and their values, and no other keys; the active lines are a list in
another new table, as long as there are entries.  No other table is new or changed, nor is
anything else.  For a level that is not there the script gets nothing, and the machine
stays as it was. -/
theorem info_table_projects_record
    (hargs : Arguments.ofValues m current LibraryFunction.getInfo.name args = .ok a)
    (htarget : targetArgument m current LibraryFunction.getInfo.name a 0 = .ok target)
    (hwhat : RequestLetters (a.get 1) what) :
    (∀ th target what, m.getInfo? th target what =
      (m.getInfo? th target InfoRequest.allLetters).map (·.restrict what)) ∧
    (∀ n, target = .level n → (m.calls a.thread).frame? n = none →
      m.libGetInfo current args = .ok ([], m)) ∧
    ((∀ n, target = .level n → (m.calls a.thread).frame? n ≠ none) →
      ∃ info t list store,
        m.getInfo? a.thread target InfoRequest.allLetters = some info.complete ∧
        m.libGetInfo current args = .ok ([.table t], { m with store }) ∧
        m.store.DescriptionAdded info what t list store) := by
  rw [libGetInfo_of_arguments hargs htarget hwhat]
  refine ⟨?_, ?_, ?_⟩
  · intro th target what
    rw [getInfo?_eq_restrict, getInfo?_allLetters, Option.map_map]
    rfl
  · intro n hn hframe
    rw [infoResults_of_absent (record?_eq_none_iff.mpr ⟨n, hn, hframe⟩)]
  · intro hframe
    have hsome : m.record? a.thread target ≠ none := by
      intro hnone
      obtain ⟨n, hn, habsent⟩ := record?_eq_none_iff.mp hnone
      exact hframe n hn habsent
    obtain ⟨info, hinfo⟩ := Option.ne_none_iff_exists'.mp hsome
    obtain ⟨list, hadded⟩ := m.store.newInfoTable_adds info what
    refine ⟨info, _, list, _, ?_, ?_, hadded⟩
    · rw [getInfo?_allLetters, hinfo, Option.map_some]
    · rw [infoResults_of_record? hinfo]

/-- A main chunk that asks on line 7 who it is. -/
def askingMachine : Machine :=
  let p : Prototype :=
    ⟨some "@main.lua", 0, 0, 0, true, 2, #[.ofABC .call 0 1 1], #[7], #[], [], #[]⟩
  let stack := (CallStack.empty.push (.script ⟨1⟩ [] ⟨0⟩ 2)).push (.bare ⟨0⟩)
  let start := (Machine.new .default false).setThread mainThread ⟨some stack, .initial⟩
  { start with
    store := { start.store with
      functions := #[⟨.native "getinfo", .library .getInfo⟩, ⟨.script p #[], .scripted "main" []⟩]
      windows := #[#[.nil, .nil]] } }

/-- It gets its line and the list of its lines, and not its source. -/
theorem lines_of_asking_chunk : ∃ t list store record lines,
    askingMachine.libGetInfo mainThread [.integer 1, .string "lL?l"] =
      .ok ([.table t], { askingMachine with store }) ∧
    store.table? t = some record ∧ record.get (.string "currentline") = .integer 7 ∧
    record.get (.string "source") = .nil ∧ record.get (.string "activelines") = .table list ∧
    store.table? list = some lines ∧ lines.length = 1 ∧ lines.getIndex 1 = .integer 7 := by
  have hargs : Arguments.ofValues askingMachine mainThread LibraryFunction.getInfo.name
      [.integer 1, .string "lL?l"] = .ok ⟨mainThread, 0, [.integer 1, .string "lL?l"]⟩ := rfl
  have htarget : targetArgument askingMachine mainThread LibraryFunction.getInfo.name
      ⟨mainThread, 0, [.integer 1, .string "lL?l"]⟩ 0 = .ok (.level 2) := by
    decide +kernel
  obtain ⟨-, -, hpresent⟩ := info_table_projects_record hargs htarget (.string "lL?l")
  have hframe : ∀ n, InfoTarget.level 2 = .level n →
      (askingMachine.calls mainThread).frame? n ≠ none := by
    rintro n ⟨rfl⟩
    decide +kernel
  obtain ⟨info, t, list, store, hinfo, hresult, hadded⟩ := hpresent hframe
  have hgroups : (some info.complete).map (fun i => (i.currentLine, i.activeLines)) =
      some (some (some 7), some [some 7]) := by
    rw [← hinfo]
    decide +kernel
  obtain ⟨hline, hlines⟩ : info.currentLine = some 7 ∧ info.activeLines = [some 7] := by
    simpa [FunctionInfo.complete] using hgroups
  have hasked : info.fieldsFor list "lL?l" =
      [("currentline", .integer 7), ("activelines", .table list)] := by
    simp only [FunctionInfo.fieldsFor, FunctionInfo.groups, hline]
    rfl
  obtain ⟨record, hrecord, hfields⟩ := hadded.record
  obtain ⟨-, -, lines, hlist, helements⟩ := hadded.lines (by decide)
  rw [hasked] at hfields
  rw [hlines] at helements
  refine ⟨t, list, store, record, lines, hresult, hrecord, ?_, ?_, ?_, hlist,
    helements.length_eq, helements.getIndex_eq 0 _ rfl⟩
  · exact (hfields.get_eq_iff _ _ Value.noConfusion).mpr ⟨_, rfl, List.mem_cons_self⟩
  · by_contra hsource
    obtain ⟨name, hname, hmem⟩ := (hfields.get_eq_iff _ _ hsource).mp rfl
    cases hname
    simp at hmem
  · exact (hfields.get_eq_iff _ _ Value.noConfusion).mpr
      ⟨_, rfl, List.mem_cons_of_mem _ List.mem_cons_self⟩

end Machine

end ScriptDebug
