/-!
# Short source names

The name of a chunk as messages show it, cut to a given size.  A name marked `=`
keeps its beginning, a file marked `@` keeps its end, and any other source is
quoted up to its first line.

## Implementation notes

The size counts one character more than may be shown.  All cuts are made on
characters, so that a cut text is a prefix or suffix of the source.
-/

namespace ScriptDebug

/-- Sizes below this leave no room for a quotation. -/
def minSourceSize : Nat := 16

def ellipsis : List Char := ['.', '.', '.']

/-- A file name of at most `room` characters, or the end of it after an ellipsis. -/
def shortFile (file : List Char) (room : Nat) : List Char :=
  if file.length ≤ room then file
  else ellipsis ++ file.drop (file.length - (room - ellipsis.length))

/-- Source text in quotes: all of a single line with fewer than `room`
characters, otherwise at most `room` characters of the first line. -/
def quotedSource (source : List Char) (room : Nat) : List Char :=
  let firstLine := source.takeWhile (· != '\n')
  let shown :=
    if firstLine.length = source.length ∧ source.length < room then source
    else firstLine.take room ++ ellipsis
  "[string \"".toList ++ shown ++ "\"]".toList

/-- The display form of a source name, of at most `size - 1` characters for all
sizes from `minSourceSize` on. -/
def shortSource (source : String) (size : Nat) : String :=
  String.ofList <|
    match source.toList with
    | '=' :: name => name.take (size - 1)
    | '@' :: file => shortFile file (size - 1)
    | text => quotedSource text (size - (minSourceSize - 1))

end ScriptDebug
