import ScriptDebug.Text.ShortSource

/-!
# Settings

What an embedding program can tune, and what it has to respect.
-/

namespace ScriptDebug

structure Settings where
  /-- Whether the machine state is recorded at every instruction. -/
  trace : Bool
  /-- The size that short source names are cut to. -/
  sourceSize : Nat
  deriving DecidableEq, Inhabited

namespace Settings

def default : Settings := ⟨false, 60⟩

/-- Why settings were refused. -/
inductive Error where
  /-- The text is no settings file. -/
  | unreadable
  /-- The size of source names is below the minimum. -/
  | sourceSizeTooSmall (size : Nat)
  deriving DecidableEq

def Error.message : Error → String
  | unreadable => "failed to parse debug configuration"
  | sourceSizeTooSmall size =>
    "invalid debug configuration: source_id_size must be at least " ++ minSourceSize.repr ++
      ", got " ++ size.repr

/-- Accept settings with a usable size of source names. -/
def validate (s : Settings) : Except Error Settings :=
  if s.sourceSize < minSourceSize then .error (.sourceSizeTooSmall s.sourceSize) else .ok s

end Settings

end ScriptDebug
