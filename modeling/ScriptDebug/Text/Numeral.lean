/-!
# Padded numerals

Fixed-width numerals used where identities and raw words are shown.  A numeral
that is already wide enough is never cut.
-/

namespace ScriptDebug

/-- Pad a list of characters on the left up to a given length. -/
def padLeft (pad : Char) (width : Nat) (cs : List Char) : List Char :=
  List.replicate (width - cs.length) pad ++ cs

/-- Lower-case hexadecimal with at least eight digits, after `0x`. -/
def hexWord (n : Nat) : String :=
  "0x" ++ String.ofList (padLeft '0' 8 (Nat.toDigits 16 n))

/-- Pad a text with blanks on the right up to a given number of characters. -/
def padRight (width : Nat) (s : String) : String :=
  s ++ String.ofList (List.replicate (width - s.length) ' ')

end ScriptDebug
