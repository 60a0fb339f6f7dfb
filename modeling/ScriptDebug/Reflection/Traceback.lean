import ScriptDebug.Reflection.Info

/-!
# Tracebacks

The active calls of a thread as text: an optional message, a header, one entry
per call from a level outward, and a last entry for the host.
-/

namespace ScriptDebug

/-- The short source of native functions in a traceback. -/
def nativeShortSource : String := "[native]"

namespace Store

/-- The entry of a call, which made its own name known to its caller or not. -/
def traceEntry (s : Store) (size : Nat) (fr : Frame) (name : Option SymbolicName) : String :=
  match fr.prototype? s with
  | none =>
    let shown := ((name.map (·.name)).orElse fun _ => s.nativeName? fr.callee).getD unknownName
    "\n\t" ++ nativeShortSource ++ ": in function '" ++ shown ++ "'"
  | some p =>
    let source := shortSource p.sourceName size
    let line := match fr.line? s with
      | some n => n.repr ++ ":"
      | none => ""
    let subject :=
      if p.isMain then "main chunk"
      else
        match name with
        | some n => "function '" ++ n.name ++ "'"
        | none => "function <" ++ source ++ ":" ++ p.lineDefined.repr ++ ">"
    "\n\t" ++ source ++ ":" ++ line ++ " in " ++ subject

/-- The entries of the calls from a level outward. -/
def traceEntries (s : Store) (size : Nat) (cs : CallStack) (level : Int) : List String :=
  (cs.levels.drop ((max level 1).toNat - 1)).map fun (fr, l) =>
    s.traceEntry size fr (s.callName? cs l)

/-- The traceback of a call stack from a level outward. -/
def traceback (s : Store) (size : Nat) (cs : CallStack) (message : Option String)
    (level : Int) : String :=
  let opening := match message with
    | some m => m ++ "\n"
    | none => ""
  opening ++ "stack traceback:" ++ String.join (s.traceEntries size cs level) ++
    "\n\t" ++ nativeShortSource ++ ": in ?"

end Store

end ScriptDebug
