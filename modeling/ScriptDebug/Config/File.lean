import ScriptDebug.Config.Settings
import ScriptDebug.Number.Power

/-!
# Settings files

Reads settings from TOML text.  The only keys are `trace`, a boolean, and
`source_id_size`, an integer; each may be given once, and a missing key keeps
its default.

## Implementation notes

No key has a table, array, string, date or float for its value, so a text that
holds any of these is refused whatever follows.  What remains of the format is
read line by line: blanks, comments, the three spellings of a key, booleans, and
integers in four bases.
-/

namespace ScriptDebug

namespace SettingsFile

/-- The value of a key: the two types that settings have. -/
inductive Scalar where
  | boolean (b : Bool)
  | integer (n : Int)
  deriving DecidableEq

/-! ## Characters -/

def isBlank (c : Char) : Bool := c == ' ' || c == '\t'

/-- Control characters other than the tab are allowed nowhere within a line. -/
def isPrintable (c : Char) : Bool := c == '\t' || 0x20 ≤ c.toNat && c.toNat != 0x7f

def isBareKeyChar (c : Char) : Bool := c.isAlphanum || c == '_' || c == '-'

/-- The value of a digit in a base of at most 16. -/
def digit? (base : Nat) (c : Char) : Option Nat :=
  let d? :=
    if '0' ≤ c ∧ c ≤ '9' then some (c.toNat - '0'.toNat)
    else if 'a' ≤ c ∧ c ≤ 'f' then some (c.toNat - 'a'.toNat + 10)
    else if 'A' ≤ c ∧ c ≤ 'F' then some (c.toNat - 'A'.toNat + 10)
    else none
  d?.filter (· < base)

/-! ## Lines -/

/-- The lines of a text, ended by a line feed with or without a carriage return. -/
def linesFrom (line : List Char) : List Char → List (List Char)
  | [] => [line.reverse]
  | '\r' :: '\n' :: rest => line.reverse :: linesFrom [] rest
  | '\n' :: rest => line.reverse :: linesFrom [] rest
  | c :: rest => linesFrom (c :: line) rest

/-- The lines of a file; a byte order mark at its start is no part of them. -/
def lines : List Char → List (List Char)
  | '\ufeff' :: cs => linesFrom [] cs
  | cs => linesFrom [] cs

/-- Whether the rest of a line says nothing: blanks and possibly a comment. -/
def isTrailer (cs : List Char) : Bool :=
  match cs.dropWhile isBlank with
  | [] => true
  | '#' :: comment => comment.all isPrintable
  | _ => false

/-! ## Keys -/

/-- A character given by a number of hexadecimal digits, with what follows. -/
def escapedCode? (digits : Nat) (cs : List Char) : Option (Char × List Char) := do
  let ds ← (cs.take digits).mapM (digit? 16)
  let code := ds.foldl (fun n d => n * 16 + d) 0
  if ds.length = digits ∧ (code < 0xd800 ∨ 0xdfff < code ∧ code < 0x110000) then
    return (Char.ofNat code, cs.drop digits)
  else
    none

/-- The character meant by an escape, which follows a backslash. -/
def escape? : List Char → Option (Char × List Char)
  | 'b' :: cs => some ('\x08', cs)
  | 't' :: cs => some ('\t', cs)
  | 'n' :: cs => some ('\n', cs)
  | 'f' :: cs => some ('\x0c', cs)
  | 'r' :: cs => some ('\r', cs)
  | '"' :: cs => some ('"', cs)
  | '\\' :: cs => some ('\\', cs)
  | 'u' :: cs => escapedCode? 4 cs
  | 'U' :: cs => escapedCode? 8 cs
  | _ => none

/-- A quoted key with escapes, after its opening quote, with what follows.  The
fuel bounds the number of characters. -/
def escapedKey? (key : List Char) : Nat → List Char → Option (List Char × List Char)
  | 0, _ => none
  | _ + 1, [] => none
  | _ + 1, '"' :: cs => some (key.reverse, cs)
  | n + 1, '\\' :: cs => (escape? cs).bind fun (c, cs) => escapedKey? (c :: key) n cs
  | n + 1, c :: cs => if isPrintable c then escapedKey? (c :: key) n cs else none

/-- A key in any spelling, with what follows it. -/
def key? : List Char → Option (List Char × List Char)
  | '"' :: cs => escapedKey? [] (cs.length + 1) cs
  | '\'' :: cs =>
    let key := cs.takeWhile (· != '\'')
    match cs.dropWhile (· != '\'') with
    | _ :: rest => if key.all isPrintable then some (key, rest) else none
    | [] => none
  | cs =>
    let key := cs.takeWhile isBareKeyChar
    if key.isEmpty then none else some (key, cs.dropWhile isBareKeyChar)

/-! ## Values -/

/-- The number written by digits, each after the first possibly after an underscore. -/
def digitsFrom? (base : Nat) (value : Nat) : List Char → Option Nat
  | [] => some value
  | '_' :: c :: rest => do
    let d ← digit? base c
    digitsFrom? base (value * base + d) rest
  | c :: rest => do
    let d ← digit? base c
    digitsFrom? base (value * base + d) rest

def digits? (base : Nat) : List Char → Option Nat
  | [] => none
  | c :: rest => do
    let d ← digit? base c
    digitsFrom? base d rest

/-- A decimal number; only zero itself starts with a zero. -/
def decimal? : List Char → Option Nat
  | ['0'] => some 0
  | '0' :: _ => none
  | cs => digits? 10 cs

/-- An integer, not necessarily one of 64 bits. -/
def integer? : List Char → Option Int
  | '0' :: 'x' :: cs => (digits? 16 cs).map Int.ofNat
  | '0' :: 'o' :: cs => (digits? 8 cs).map Int.ofNat
  | '0' :: 'b' :: cs => (digits? 2 cs).map Int.ofNat
  | '+' :: cs => (decimal? cs).map Int.ofNat
  | '-' :: cs => (decimal? cs).map fun n => -Int.ofNat n
  | cs => (decimal? cs).map Int.ofNat

def scalar? (cs : List Char) : Option Scalar :=
  if cs = "true".toList then some (.boolean true)
  else if cs = "false".toList then some (.boolean false)
  else ((integer? cs).filter fun n => -2 ^ 63 ≤ n && n < 2 ^ 63).map .integer

/-! ## Files -/

/-- What a line says: nothing, or a key and its value. -/
def line? (cs : List Char) : Option (Option (String × Scalar)) :=
  if isTrailer cs then some none
  else do
    let (key, rest) ← key? (cs.dropWhile isBlank)
    match rest.dropWhile isBlank with
    | '=' :: rest =>
      let rest := rest.dropWhile isBlank
      let isValueChar (c : Char) : Bool := !(isBlank c || c == '#')
      let value ← scalar? (rest.takeWhile isValueChar)
      if isTrailer (rest.dropWhile isValueChar) then
        return some (String.ofList key, value)
      else
        none
    | _ => none

/-- The keys and values of a file in order. -/
def entries? (text : String) : Option (List (String × Scalar)) :=
  ((lines text.toList).mapM line?).map (·.filterMap id)

def traceKey : String := "trace"

def sourceSizeKey : String := "source_id_size"

/-- Settings with some keys already given. -/
structure Partial where
  trace : Option Bool
  sourceSize : Option Nat

/-- Take over one entry.  Unknown and repeated keys are refused, and values of
the wrong type or sign. -/
def Partial.add? (p : Partial) : String × Scalar → Option Partial
  | (key, .boolean b) =>
    if key = traceKey ∧ p.trace.isNone then some { p with trace := some b } else none
  | (key, .integer n) =>
    if key = sourceSizeKey ∧ p.sourceSize.isNone ∧ 0 ≤ n then
      some { p with sourceSize := some n.toNat }
    else
      none

end SettingsFile

/-- The settings that a file gives. -/
def Settings.read (text : String) : Except Settings.Error Settings :=
  let given := do
    let entries ← SettingsFile.entries? text
    entries.foldlM SettingsFile.Partial.add? ⟨none, none⟩
  match given with
  | none => .error .unreadable
  | some p =>
    Settings.validate
      ⟨p.trace.getD Settings.default.trace, p.sourceSize.getD Settings.default.sourceSize⟩

end ScriptDebug
