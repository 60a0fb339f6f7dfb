import Mathlib.Data.List.TakeWhile
import ScriptDebug.Text.ShortSource

/-!
# What a short source name shows

A short name has at most one character less than its size, for every size that leaves room
for a quotation.  All that it shows besides the quotation marks and an ellipsis is text of
the source: the front of a literal name, the end of a file name, or the first line.

## Implementation notes

The three formats have budgets of their own.  `IsLongestFront` and `IsFirstLine` say what is
shown without saying how it is found; the lengths of the parts are added up once for each
format.
-/

namespace ScriptDebug

variable {room size : Nat} {text file : List Char} {source : String}

/-! ## Fronts and first lines -/

/-- The longest front of a text that has at most `room` characters. -/
structure IsLongestFront (room : Nat) (text front : List Char) : Prop where
  isFront : front <+: text
  fits : front.length ≤ room
  longest : ∀ other, other <+: text → other.length ≤ room → other <+: front

/-- The first line of a text: all of it, or what stands before its first newline. -/
structure IsFirstLine (text line : List Char) : Prop where
  oneLine : '\n' ∉ line
  ends : line = text ∨ line ++ ['\n'] <+: text

theorem isLongestFront_take (room : Nat) (text : List Char) :
    IsLongestFront room text (text.take room) where
  isFront := List.take_prefix room text
  fits := List.length_take_le room text
  longest other hother hfits := by
    obtain ⟨rest, rfl⟩ := hother
    rw [List.take_append, List.take_of_length_le hfits]
    exact List.prefix_append other _

theorem isFirstLine_takeWhile (text : List Char) :
    IsFirstLine text (text.takeWhile (· != '\n')) where
  oneLine hmem := absurd (List.mem_takeWhile_imp hmem) (by decide)
  ends := by
    induction text with
    | nil => exact .inl rfl
    | cons c text ih =>
      by_cases hc : c = '\n'
      · subst hc
        exact .inr ⟨text, rfl⟩
      · rw [List.takeWhile_cons, if_pos (bne_iff_ne.mpr hc)]
        obtain heq | ⟨rest, hrest⟩ := ih
        · exact .inl (congrArg (c :: ·) heq)
        · exact .inr ⟨rest, congrArg (c :: ·) hrest⟩

/-- A text of one line is as long as its first line, and no other text is. -/
theorem length_firstLine_eq_iff (text : List Char) :
    (text.takeWhile (· != '\n')).length = text.length ↔ '\n' ∉ text := by
  constructor
  · intro hlength
    rw [← (List.takeWhile_prefix _).eq_of_length hlength]
    exact (isFirstLine_takeWhile text).oneLine
  · intro hline
    rw [List.takeWhile_eq_self_iff.mpr]
    intro c hc
    rw [bne_iff_ne]
    rintro rfl
    exact hline hc

/-! ## File names -/

theorem shortFile_of_fits (h : file.length ≤ room) : shortFile file room = file := if_pos h

/-- A file name that is too long fills the room with its end behind an ellipsis. -/
theorem shortFile_of_long (hroom : ellipsis.length ≤ room) (h : room < file.length) :
    (shortFile file room).length = room ∧
      ∃ rest, rest <:+ file ∧ shortFile file room = ellipsis ++ rest := by
  rw [shortFile, if_neg (Nat.not_le_of_lt h)]
  refine ⟨?_, _, List.drop_suffix _ file, rfl⟩
  rw [List.length_append, List.length_drop]
  omega

theorem length_shortFile_le (hroom : ellipsis.length ≤ room) (file : List Char) :
    (shortFile file room).length ≤ room := by
  by_cases h : file.length ≤ room
  · rw [shortFile_of_fits h]
    exact h
  · exact Nat.le_of_eq (shortFile_of_long hroom (Nat.lt_of_not_le h)).1

/-! ## Quotations -/

/-- A text between the marks of a quotation. -/
def quotation (text : List Char) : List Char := "[string \"".toList ++ text ++ "\"]".toList

theorem length_quotation (text : List Char) : (quotation text).length = text.length + 11 := by
  unfold quotation
  rw [List.length_append, List.length_append, String.length_toList, String.length_toList]
  have hmarks : "[string \"".length = 9 ∧ "\"]".length = 2 := by decide +kernel
  omega

/-- A single line with characters to spare is quoted as it is. -/
theorem quotedSource_of_fits (hline : '\n' ∉ text) (h : text.length < room) :
    quotedSource text room = quotation text := by
  unfold quotedSource quotation
  dsimp only
  rw [if_pos ⟨(length_firstLine_eq_iff text).mpr hline, h⟩]

/-- Of any other source a front of the first line is quoted, with an ellipsis. -/
theorem quotedSource_of_cut (h : ¬ ('\n' ∉ text ∧ text.length < room)) :
    quotedSource text room =
      quotation ((text.takeWhile (· != '\n')).take room ++ ellipsis) := by
  rw [← length_firstLine_eq_iff] at h
  unfold quotedSource quotation
  dsimp only
  rw [if_neg h]

/-- Between the marks stands one line: the source, or a front of its first line. -/
theorem quotedSource_shows (room : Nat) (text : List Char) :
    ∃ shown, quotedSource text room = quotation shown ∧ '\n' ∉ shown ∧
      ('\n' ∉ text ∧ text.length < room → shown = text) ∧
      (¬ ('\n' ∉ text ∧ text.length < room) →
        ∃ line front, IsFirstLine text line ∧ front <+: line ∧
          front.length = min line.length room ∧ shown = front ++ ellipsis) := by
  by_cases h : '\n' ∉ text ∧ text.length < room
  · exact ⟨text, quotedSource_of_fits h.1 h.2, h.1, fun _ => rfl, fun hnot => absurd h hnot⟩
  · let line := text.takeWhile (· != '\n')
    have hline : IsFirstLine text line := isFirstLine_takeWhile text
    have hfront : line.take room <+: line := List.take_prefix room line
    have hshown : '\n' ∉ line.take room ++ ellipsis := by
      rw [List.mem_append, not_or]
      exact ⟨fun hmem => hline.oneLine (hfront.subset hmem), by decide⟩
    refine ⟨_, quotedSource_of_cut h, hshown, fun hfits => absurd hfits h, fun _ => ?_⟩
    exact ⟨line, line.take room, hline, hfront, by rw [List.length_take, Nat.min_comm], rfl⟩

theorem length_quotedSource_le (room : Nat) (text : List Char) :
    (quotedSource text room).length ≤ room + 14 := by
  by_cases h : '\n' ∉ text ∧ text.length < room
  · rw [quotedSource_of_fits h.1 h.2, length_quotation]
    omega
  · have hfront := List.length_take_le room (text.takeWhile (· != '\n'))
    have hdots : ellipsis.length = 3 := rfl
    rw [quotedSource_of_cut h, length_quotation, List.length_append, hdots]
    omega

/-! ## Short names -/

theorem shortSource_literal {name : List Char} (h : source.toList = '=' :: name) (size : Nat) :
    (shortSource source size).toList = name.take (size - 1) := by
  simp only [shortSource, h, String.toList_ofList]

theorem shortSource_file (h : source.toList = '@' :: file) (size : Nat) :
    (shortSource source size).toList = shortFile file (size - 1) := by
  simp only [shortSource, h, String.toList_ofList]

theorem shortSource_text (hliteral : source.toList.head? ≠ some '=')
    (hfile : source.toList.head? ≠ some '@') (size : Nat) :
    (shortSource source size).toList = quotedSource source.toList (size - 15) := by
  rw [shortSource, String.toList_ofList]
  split
  · rename_i hsource
    rw [hsource] at hliteral
    exact absurd rfl hliteral
  · rename_i hsource
    rw [hsource] at hfile
    exact absurd rfl hfile
  · rfl

theorem length_ellipsis_le (hsize : minSourceSize ≤ size) : ellipsis.length ≤ size - 1 := by
  have hdots : ellipsis.length = 3 := rfl
  unfold minSourceSize at hsize
  omega

theorem length_shortSource_le (hsize : minSourceSize ≤ size) (source : String) :
    (shortSource source size).toList.length ≤ size - 1 := by
  have hquotation : size - 15 + 14 ≤ size - 1 := by
    unfold minSourceSize at hsize
    omega
  by_cases hliteral : source.toList.head? = some '='
  · obtain ⟨name, hname⟩ := List.head?_eq_some_iff.mp hliteral
    rw [shortSource_literal hname]
    exact List.length_take_le _ _
  · by_cases hfile : source.toList.head? = some '@'
    · obtain ⟨file, hfile⟩ := List.head?_eq_some_iff.mp hfile
      rw [shortSource_file hfile]
      exact length_shortFile_le (length_ellipsis_le hsize) file
    · rw [shortSource_text hliteral hfile]
      exact Nat.le_trans (length_quotedSource_le _ _) hquotation

/-- A short name fits its size.  A literal name is shown by the longest front that fits, and
a file name by itself, if it fits, or by as much of its end as fits with an ellipsis.  Any
other source is quoted on one line: all of it, if it is a single line with characters to
spare, and otherwise as much of its first line as fits, with an ellipsis. -/
theorem short_source_shows_text (source : String) (hsize : minSourceSize ≤ size) :
    let shown := (shortSource source size).toList
    shown.length ≤ size - 1 ∧
    (∀ name, source.toList = '=' :: name → IsLongestFront (size - 1) name shown) ∧
    (∀ file, source.toList = '@' :: file →
      (file.length ≤ size - 1 → shown = file) ∧
      (size - 1 < file.length →
        shown.length = size - 1 ∧ ∃ rest, rest <:+ file ∧ shown = ellipsis ++ rest)) ∧
    (source.toList.head? ≠ some '=' → source.toList.head? ≠ some '@' →
      ∃ text, shown = quotation text ∧ '\n' ∉ text ∧
        ('\n' ∉ source.toList ∧ source.toList.length < size - 15 → text = source.toList) ∧
        (¬ ('\n' ∉ source.toList ∧ source.toList.length < size - 15) →
          ∃ line front, IsFirstLine source.toList line ∧ front <+: line ∧
            front.length = min line.length (size - 15) ∧ text = front ++ ellipsis)) := by
  intro shown
  refine ⟨length_shortSource_le hsize source, ?_, ?_, ?_⟩
  · intro name hname
    rw [show shown = name.take (size - 1) from shortSource_literal hname size]
    exact isLongestFront_take (size - 1) name
  · intro file hfile
    rw [show shown = shortFile file (size - 1) from shortSource_file hfile size]
    exact ⟨shortFile_of_fits, shortFile_of_long (length_ellipsis_le hsize)⟩
  · intro hliteral hfile
    rw [show shown = quotedSource source.toList (size - 15) from
      shortSource_text hliteral hfile size]
    exact quotedSource_shows (size - 15) source.toList

/-- In the smallest size a file name keeps twelve characters, of two bytes each, and of a
source of two lines one character is quoted. -/
theorem smallest_size_shows_text :
    let file := shortSource "@αβγδεζηθικλμνξοπ" minSourceSize
    let code := shortSource "é = 1\nreturn é" minSourceSize
    (file.toList.length = 15 ∧ ∃ rest, rest <:+ "αβγδεζηθικλμνξοπ".toList ∧
      file.toList = ellipsis ++ rest) ∧
    ∃ line front, IsFirstLine "é = 1\nreturn é".toList line ∧ front <+: line ∧
      front.length = min line.length 1 ∧ code.toList = quotation (front ++ ellipsis) := by
  intro file code
  have hsize : minSourceSize ≤ minSourceSize := Nat.le_refl minSourceSize
  obtain ⟨-, -, hfile, -⟩ := short_source_shows_text "@αβγδεζηθικλμνξοπ" hsize
  obtain ⟨-, -, -, hcode⟩ := short_source_shows_text "é = 1\nreturn é" hsize
  have hlong : minSourceSize - 1 < "αβγδεζηθικλμνξοπ".toList.length := by decide +kernel
  have hlines : '\n' ∈ "é = 1\nreturn é".toList := by decide +kernel
  obtain ⟨text, htext, -, -, hcut⟩ := hcode (by decide +kernel) (by decide +kernel)
  obtain ⟨line, front, hline, hfront, hlength, rfl⟩ := hcut fun h => h.1 hlines
  exact ⟨(hfile _ (by decide +kernel)).2 hlong, line, front, hline, hfront, hlength, htext⟩

end ScriptDebug
