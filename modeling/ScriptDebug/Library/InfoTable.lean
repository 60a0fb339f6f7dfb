import ScriptDebug.Machine.Reflection

/-!
# Descriptions as tables

A description is handed to scripts as a table with one field per item; the lines
of active calls are a table of their own.
-/

namespace ScriptDebug

namespace SelectedInfo

/-- The key of the table of active lines. -/
def activeLinesKey : String := "activelines"

/-- The fields of a description, apart from the active lines. -/
def fields (info : SelectedInfo) : List (String × Value) :=
  let number (n : Int) : Value := .integer (Int64.ofInt n)
  let source := match info.source with
    | some src =>
      [("what", .string src.kind.text), ("source", .string src.source),
        ("short_src", .string src.shortSource),
        ("linedefined", number (lineNumber src.lineDefined)),
        ("lastlinedefined", number (lineNumber src.lastLineDefined))]
    | none => []
  let line := match info.currentLine with
    | some line => [("currentline", number (lineNumber line))]
    | none => []
  let upvalues := match info.upvalues with
    | some up =>
      [("nups", number up.upvalueCount), ("nparams", number up.paramCount),
        ("isvararg", .boolean up.isVararg)]
    | none => []
  let name := match info.name with
    | some (some n) => [("name", .string n.name), ("namewhat", .string n.kind.text)]
    | some none => [("name", .string unknownName), ("namewhat", .string "")]
    | none => []
  let tail := match info.isTailCall with
    | some b => [("istailcall", .boolean b)]
    | none => []
  let function := match info.function with
    | some f => [("func", .function f)]
    | none => []
  source ++ line ++ upvalues ++ name ++ tail ++ function

/-- Every field that the table of a description can have, apart from the active lines. -/
def fieldNames : List String :=
  ["what", "source", "short_src", "linedefined", "lastlinedefined", "currentline",
    "nups", "nparams", "isvararg", "name", "namewhat", "istailcall", "func"]

/-- The active lines as the contents of a table, one per index from 1. -/
def linesTable (lines : List (Option Nat)) (t : Table) : Table :=
  (lines.zipIdx 1).foldl
    (fun t (line, i) => t.setIndex i (.integer (Int64.ofInt (lineNumber line)))) t

end SelectedInfo

namespace Store

def setFields (s : Store) (t : TableId) (fields : List (String × Value)) : Store :=
  fields.foldl (fun s (name, v) => s.setField t name v) s

/-- A new table that holds a description. -/
def newInfoTable (s : Store) (info : SelectedInfo) : Store × TableId :=
  let (s, t) := s.newTable
  match info.activeLines with
  | none => (s.setFields t info.fields, t)
  | some lines =>
    let (s, list) := s.newTable
    let s := s.modifyTable list (SelectedInfo.linesTable lines)
    (s.setFields t (info.fields ++ [(SelectedInfo.activeLinesKey, .table list)]), t)

end Store

end ScriptDebug
