import ScriptDebug.Bytecode.Disassembly
import ScriptDebug.Proofs.Bytecode.Operands

/-!
# Listings tell their instructions

The text of an instruction and its line in a listing both show the word, whatever the names
in the comment of the line.  No two instructions have the same text, and lines that are the
same are lines of the same instruction.

## Implementation notes

Both texts are lines: a first word, which tells the opcode, and for a defined opcode its
operands, each after a separator that begins with a blank (`Instruction.line`).  Nothing
that is printed before the comment has a blank or a tab of its own, and a comment begins
with a tab, so a line is cut into its words from the left in one way only (`IsWord.inj`).
-/

namespace ScriptDebug

/-! ## Words of eight digits -/

/-- The value of a lower-case hexadecimal digit. -/
def hexDigitValue (c : Char) : Nat :=
  if c.isDigit then c.toNat - '0'.toNat else c.toNat - 'a'.toNat + 10

/-- The number that hexadecimal digits are written for, with zeros in front or not. -/
def hexValue (cs : List Char) : Nat := cs.foldl (fun n c => 16 * n + hexDigitValue c) 0

theorem hexDigitValue_digitChar {d : Nat} (hd : d < 16) : hexDigitValue (Nat.digitChar d) = d := by
  revert d
  decide

theorem hexValue_toDigits (n : Nat) : hexValue (Nat.toDigits 16 n) = n := by
  induction n using Nat.strongRecOn with
  | ind n ih =>
    rw [Nat.toDigits_eq_if (by decide)]
    split
    · rename_i hn
      simp [hexValue, hexDigitValue_digitChar hn]
    · rename_i hn
      have hfront : hexValue (Nat.toDigits 16 (n / 16)) = n / 16 := ih (n / 16) (by omega)
      have hlast : hexDigitValue (Nat.digitChar (n % 16)) = n % 16 :=
        hexDigitValue_digitChar (Nat.mod_lt n (by decide))
      unfold hexValue at hfront ⊢
      rw [List.foldl_append, hfront, List.foldl_cons, List.foldl_nil, hlast]
      omega

theorem hexValue_padLeft (width : Nat) (cs : List Char) :
    hexValue (padLeft '0' width cs) = hexValue cs := by
  have hzeros : ∀ k, hexValue (List.replicate k '0') = 0 := by
    intro k
    induction k with
    | zero => rfl
    | succ k ih => exact ih
  have hfront := hzeros (width - cs.length)
  unfold hexValue at hfront ⊢
  rw [padLeft, List.foldl_append, hfront]

/-- The digits of a word tell its number. -/
theorem hexWord_inj {n n' : Nat} (h : hexWord n = hexWord n') : n = n' := by
  have hdigits : padLeft '0' 8 (Nat.toDigits 16 n) = padLeft '0' 8 (Nat.toDigits 16 n') :=
    String.ofList_injective ((String.append_right_inj "0x").mp h)
  calc
    n = hexValue (padLeft '0' 8 (Nat.toDigits 16 n)) := by
      rw [hexValue_padLeft, hexValue_toDigits]
    _ = hexValue (padLeft '0' 8 (Nat.toDigits 16 n')) := by rw [hdigits]
    _ = n' := by rw [hexValue_padLeft, hexValue_toDigits]

/-! ## Words and what follows them -/

/-- The characters that end a word. -/
def isGap (c : Char) : Bool := c == ' ' || c == '\t'

/-- A text without blanks and tabs. -/
def IsWord (w : String) : Prop := ∀ c ∈ w.toList, isGap c = false

/-- A text that may follow a word: it is empty or begins with a blank or a tab. -/
def IsTail (t : String) : Prop := ∀ c ∈ t.toList.head?, isGap c = true

instance (w : String) : Decidable (IsWord w) :=
  List.decidableBAll (fun c => isGap c = false) w.toList

theorem isTail_empty : IsTail "" := by
  intro c hc
  cases hc

theorem isTail_append {t : String} {c : Char} (h : t.toList.head? = some c)
    (hc : isGap c = true) (u : String) : IsTail (t ++ u) := by
  intro c' hc'
  rw [String.toList_append, List.head?_append, h] at hc'
  cases hc'
  exact hc

theorem takeWhile_word {w t : String} (hw : IsWord w) (ht : IsTail t) :
    (w ++ t).toList.takeWhile (fun c => !isGap c) = w.toList := by
  have hword : ∀ c ∈ w.toList, (!isGap c) = true := by
    intro c hc
    rw [hw c hc]
    rfl
  have htail : t.toList.takeWhile (fun c => !isGap c) = [] := by
    unfold IsTail at ht
    cases ht' : t.toList with
    | nil => rfl
    | cons c cs =>
      rw [ht', List.head?_cons] at ht
      rw [List.takeWhile_cons, ht c rfl]
      rfl
  rw [String.toList_append, List.takeWhile_append_of_pos hword, htail, List.append_nil]

/-- A text is cut behind its first word in one way only. -/
theorem IsWord.inj {w w' t t' : String} (hw : IsWord w) (hw' : IsWord w') (ht : IsTail t)
    (ht' : IsTail t') (h : w ++ t = w' ++ t') : w = w' ∧ t = t' := by
  have hwords : w = w' := by
    apply String.toList_injective
    rw [← takeWhile_word hw ht, h, takeWhile_word hw' ht']
  subst hwords
  exact ⟨rfl, (String.append_right_inj w).mp h⟩

theorem isWord_natRepr (n : Nat) : IsWord n.repr := by
  intro c hc
  rw [Nat.toList_repr] at hc
  have hdigit : c.isDigit = true := Nat.isDigit_of_mem_toDigits (by decide) (by decide) hc
  cases hgap : isGap c with
  | false => rfl
  | true =>
    unfold isGap at hgap
    rw [Bool.or_eq_true, beq_iff_eq, beq_iff_eq] at hgap
    obtain rfl | rfl := hgap
    · cases hdigit
    · cases hdigit

theorem isWord_intRepr (n : Int) : IsWord n.repr := by
  rw [Int.repr_eq_if]
  have hsign : IsWord "-" := by decide
  split
  · exact isWord_natRepr _
  · intro c hc
    rw [String.toList_append, List.mem_append] at hc
    obtain hc | hc := hc
    · exact hsign c hc
    · exact isWord_natRepr _ c hc

/-! ## Numbers behind separators -/

theorem natRepr_inj {n n' : Nat} (h : n.repr = n'.repr) : n = n' := by
  have hdigits : Nat.toDigits 10 n = Nat.toDigits 10 n' := by
    rw [← Nat.toList_repr, h, Nat.toList_repr]
  calc
    n = Nat.ofDigitChars 10 (Nat.toDigits 10 n) 0 := Nat.ofDigitChars_ten_toDigits.symm
    _ = Nat.ofDigitChars 10 (Nat.toDigits 10 n') 0 := by rw [hdigits]
    _ = n' := Nat.ofDigitChars_ten_toDigits

/-- A sign is no digit, so the texts of numbers tell them. -/
theorem intRepr_inj {n n' : Int} (h : n.repr = n'.repr) : n = n' := by
  have hsign : ∀ k k' : Nat, k.repr ≠ "-" ++ k'.repr := by
    intro k k' heq
    have hmem : '-' ∈ Nat.toDigits 10 k := by
      rw [← Nat.toList_repr, heq, String.toList_append]
      exact List.mem_append_left _ (List.mem_singleton_self '-')
    cases Nat.isDigit_of_mem_toDigits (by decide) (by decide) hmem
  rw [Int.repr_eq_if, Int.repr_eq_if] at h
  split at h
  · split at h
    · have := natRepr_inj h
      omega
    · exact absurd h (hsign _ _)
  · split at h
    · exact absurd h.symm (hsign _ _)
    · have := natRepr_inj ((String.append_right_inj "-").mp h)
      omega

/-- Numbers, each behind a separator, and what comes after the last. -/
def spell : List String → List Int → String → String
  | sep :: seps, n :: ns, rest => sep ++ (n.repr ++ spell seps ns rest)
  | _, _, rest => rest

/-- A separator of numbers begins with a blank. -/
def IsSeparator (sep : String) : Prop := sep.toList.head? = some ' '

theorem isTail_spell {seps : List String} {ns : List Int} {rest : String}
    (hseps : ∀ sep ∈ seps, IsSeparator sep) (hrest : IsTail rest) :
    IsTail (spell seps ns rest) := by
  cases seps with
  | nil => exact hrest
  | cons sep seps =>
    cases ns with
    | nil => exact hrest
    | cons n ns =>
      exact isTail_append (hseps sep List.mem_cons_self) rfl _

/-- The numbers are told from the text, whatever comes after them. -/
theorem spell_inj {seps : List String} {ns ns' : List Int} {rest rest' : String}
    (hseps : ∀ sep ∈ seps, IsSeparator sep) (hns : ns.length = seps.length)
    (hns' : ns'.length = seps.length) (hrest : IsTail rest) (hrest' : IsTail rest')
    (h : spell seps ns rest = spell seps ns' rest') : ns = ns' := by
  induction seps generalizing ns ns' with
  | nil => rw [List.length_eq_zero_iff.mp hns, List.length_eq_zero_iff.mp hns']
  | cons sep seps ih =>
    obtain ⟨n, ns, rfl⟩ := List.exists_cons_of_length_eq_add_one hns
    obtain ⟨n', ns', rfl⟩ := List.exists_cons_of_length_eq_add_one hns'
    have hlater : ∀ sep ∈ seps, IsSeparator sep := fun sep hsep => hseps sep (.tail _ hsep)
    obtain ⟨hn, htexts⟩ := (isWord_intRepr n).inj (isWord_intRepr n') (isTail_spell hlater hrest)
      (isTail_spell hlater hrest') ((String.append_right_inj sep).mp h)
    rw [intRepr_inj hn, ih hlater (Nat.succ_inj.mp hns) (Nat.succ_inj.mp hns') htexts]

/-! ## Operands -/

/-- The operands in the order in which they are printed. -/
def Operands.numbers : Operands → List Int
  | .abc a b c => [a, b, c]
  | .aBx a bx => [a, bx]
  | .aSignedBx a sbx => [a, sbx]
  | .ax x => [x]

/-- The separators in the text of an instruction: they name the operands. -/
def OperandLayout.labels : OperandLayout → List String
  | .abc => [" A=", " B=", " C="]
  | .aBx => [" A=", " Bx="]
  | .aSignedBx => [" A=", " sBx="]
  | .ax => [" Ax="]

namespace Opcode

variable {op op' : Opcode}

theorem ofMnemonic?_mnemonic (op : Opcode) : ofMnemonic? op.mnemonic = some op := by
  cases op <;> rfl

theorem mnemonic_inj (h : op.mnemonic = op'.mnemonic) : op = op' := by
  have hop := ofMnemonic?_mnemonic op
  rw [h, ofMnemonic?_mnemonic] at hop
  exact (Option.some.inj hop).symm

/-- A word that names no opcode is none of the mnemonics. -/
theorem mnemonic_ne {w : String} (hw : ofMnemonic? w = none) (op : Opcode) : op.mnemonic ≠ w := by
  rintro rfl
  rw [ofMnemonic?_mnemonic] at hw
  cases hw

theorem isWord_mnemonic (op : Opcode) : IsWord op.mnemonic := by
  cases op <;> decide

theorem length_mnemonic_lt (op : Opcode) : op.mnemonic.length < 12 := by
  cases op <;> decide +kernel

/-- The blanks that fill the column of the mnemonic in a listing. -/
def padding (op : Opcode) : String :=
  String.ofList (List.replicate (12 - op.mnemonic.length) ' ')

/-- The separators in a line of a listing. -/
def columns (op : Opcode) : List String :=
  op.padding :: op.layout.labels.tail.map fun _ => " "

theorem isSeparator_labels (l : OperandLayout) : ∀ sep ∈ l.labels, IsSeparator sep := by
  cases l <;> simp [OperandLayout.labels, IsSeparator]

theorem isSeparator_columns (op : Opcode) : ∀ sep ∈ op.columns, IsSeparator sep := by
  have hpadding : IsSeparator op.padding := by
    have hlen := op.length_mnemonic_lt
    rw [IsSeparator, padding, String.toList_ofList, List.head?_replicate, if_neg (by omega)]
  intro sep hsep
  obtain rfl | hsep := List.mem_cons.mp hsep
  · exact hpadding
  · obtain ⟨-, -, rfl⟩ := List.mem_map.mp hsep
    rfl

theorem length_columns (op : Opcode) : op.columns.length = op.layout.labels.length := by
  rw [columns, List.length_cons, List.length_map, List.length_tail]
  cases op.layout <;> rfl

end Opcode

namespace Instruction

variable {i j : Instruction} {op : Opcode}

theorem length_numbers (i : Instruction) (l : OperandLayout) :
    (i.operands l).numbers.length = l.labels.length := by
  cases l <;> rfl

theorem operands_inj {l : OperandLayout}
    (h : (i.operands l).numbers = (j.operands l).numbers) : i.operands l = j.operands l := by
  cases l <;> simpa [operands, Operands.numbers, Int.natCast_inj] using h

/-- The first word of the text of an instruction tells its opcode. -/
def firstWord (i : Instruction) : String :=
  match i.opcode? with
  | none => "<invalid"
  | some op => op.mnemonic

/-- What comes behind the first word: the digits of the whole word, or the operands and a
comment. -/
def afterFirstWord (seps : Opcode → List String) (comment : Opcode → String) (i : Instruction) :
    String :=
  match i.opcode? with
  | none => " " ++ (hexWord i.word.toNat ++ ">")
  | some op => spell (seps op) (i.operands op.layout).numbers (comment op)

/-- A printed instruction. -/
def line (seps : Opcode → List String) (comment : Opcode → String) (i : Instruction) : String :=
  i.firstWord ++ i.afterFirstWord seps comment

theorem isWord_firstWord (i : Instruction) : IsWord i.firstWord := by
  unfold firstWord
  split
  · decide
  · exact Opcode.isWord_mnemonic _

/-- The first word tells the opcode, and whether there is one. -/
theorem firstWord_inj (h : i.firstWord = j.firstWord) : i.opcode? = j.opcode? := by
  have hinvalid : ∀ op : Opcode, op.mnemonic ≠ "<invalid" := Opcode.mnemonic_ne rfl
  unfold firstWord at h
  cases hi : i.opcode? with
  | none =>
    cases hj : j.opcode? with
    | none => rfl
    | some op =>
      rw [hi, hj] at h
      exact absurd h.symm (hinvalid op)
  | some op =>
    cases hj : j.opcode? with
    | none =>
      rw [hi, hj] at h
      exact absurd h (hinvalid op)
    | some op' =>
      rw [hi, hj] at h
      rw [Opcode.mnemonic_inj h]

theorem isTail_afterFirstWord {seps : Opcode → List String} {comment : Opcode → String}
    (hseps : ∀ op, ∀ sep ∈ seps op, IsSeparator sep) (hcomment : ∀ op, IsTail (comment op))
    (i : Instruction) : IsTail (i.afterFirstWord seps comment) := by
  have hblank : IsSeparator " " := rfl
  unfold afterFirstWord
  split
  · exact isTail_append hblank rfl _
  · exact isTail_spell (hseps _) (hcomment _)

private theorem invalid_eq : "<invalid " = "<invalid" ++ " " := by decide

theorem text_eq_line (i : Instruction) :
    i.text = i.line (fun op => op.layout.labels) fun _ => "" := by
  have hrepr : ∀ n : Nat, (n : Int).repr = n.repr := fun _ => rfl
  cases hop : i.opcode? with
  | none =>
    simp only [text, line, firstWord, afterFirstWord, hop, invalid_eq, String.append_assoc]
  | some op =>
    simp only [text, line, firstWord, afterFirstWord, hop]
    cases op.layout with
    | _ => simp only [operands, Operands.numbers, OperandLayout.labels, spell, hrepr,
        String.append_assoc, String.append_empty]

/-- Instructions with the same line are the same, whatever their comments are. -/
theorem line_inj {seps : Opcode → List String} {comment comment' : Opcode → String}
    (hseps : ∀ op, ∀ sep ∈ seps op, IsSeparator sep)
    (hlength : ∀ op, (seps op).length = op.layout.labels.length)
    (hcomment : ∀ op, IsTail (comment op)) (hcomment' : ∀ op, IsTail (comment' op))
    (h : i.line seps comment = j.line seps comment') : i = j := by
  obtain ⟨hfirst, hafter⟩ := i.isWord_firstWord.inj j.isWord_firstWord
    (i.isTail_afterFirstWord hseps hcomment) (j.isTail_afterFirstWord hseps hcomment') h
  have hop := firstWord_inj hfirst
  unfold afterFirstWord at hafter
  cases hi : i.opcode? with
  | none =>
    rw [← hop, hi] at hafter
    have hdigits : hexWord i.word.toNat = hexWord j.word.toNat :=
      (String.append_left_inj ">").mp ((String.append_right_inj " ").mp hafter)
    exact ext_toNat (hexWord_inj hdigits)
  | some op =>
    rw [← hop, hi] at hafter
    have hnumbers := spell_inj (hseps op) ((length_numbers i op.layout).trans (hlength op).symm)
      ((length_numbers j op.layout).trans (hlength op).symm) (hcomment op) (hcomment' op) hafter
    rw [← ofOperands_operands hi op.layout, operands_inj hnumbers,
      ofOperands_operands (hop ▸ hi) op.layout]

end Instruction

namespace Prototype

variable {p q : Prototype} {pc pc' : Nat} {i : Instruction}

/-- A comment begins with a tab. -/
theorem isTail_comment (p : Prototype) (op : Opcode) (i : Instruction) :
    IsTail (p.comment op i) := by
  have htab : ∀ {t : String} (u : String), t.toList.head? = some '\t' → IsTail (t ++ u) :=
    fun u h => isTail_append h rfl u
  have hupvalue : ∀ k u, IsTail (p.upvalueComment k ++ u) := by
    intro k u
    rw [upvalueComment, String.append_assoc]
    exact htab _ rfl
  unfold comment
  split
  · exact hupvalue i.b _
  · rw [String.append_assoc]
    exact hupvalue i.a _
  · exact htab _ rfl
  · exact htab _ rfl
  · split
    · exact htab _ rfl
    · exact isTail_empty
  · split
    · exact htab _ rfl
    · exact isTail_empty
  · split
    · exact htab _ rfl
    · exact isTail_empty
  · rw [String.append_assoc]
    exact htab _ rfl
  · exact htab _ rfl
  · exact isTail_empty

theorem disassemble_eq_line (h : p.code[pc]? = some i) :
    p.disassemble pc = i.line Opcode.columns fun op => p.comment op i := by
  have hrepr : ∀ n : Nat, (n : Int).repr = n.repr := fun _ => rfl
  cases hop : i.opcode? with
  | none =>
    have hsame : i.line Opcode.columns (fun op => p.comment op i) =
        i.line (fun op => op.layout.labels) fun _ => "" := by
      simp only [Instruction.line, Instruction.afterFirstWord, hop]
    rw [disassemble, h, hsame, ← Instruction.text_eq_line]
    simp only [hop]
  | some op =>
    rw [disassemble, h]
    simp only [hop, Instruction.line, Instruction.firstWord,
      Instruction.afterFirstWord, Instruction.operandText, padRight,
      Opcode.columns]
    cases op.layout with
    | _ => simp only [Instruction.operands, Operands.numbers, OperandLayout.labels, List.tail_cons,
        List.map_cons, List.map_nil, spell, hrepr, Opcode.padding,
        String.append_assoc]

/-- No line shows an instruction where there is none. -/
theorem disassemble_ne_of_none (hp : p.code[pc]? = some i) (hq : q.code[pc']? = none) :
    p.disassemble pc ≠ q.disassemble pc' := by
  have hblank : IsSeparator " " := rfl
  have hout : q.disassemble pc' = "<pc" ++ (" " ++ (pc'.repr ++ " out of range>")) := by
    have hpc : "<pc " = "<pc" ++ " " := by decide
    rw [disassemble, hq, hpc]
    simp only [String.append_assoc]
  have hfirst : i.firstWord ≠ "<pc" := by
    unfold Instruction.firstWord
    split
    · decide
    · exact Opcode.mnemonic_ne rfl _
  intro h
  rw [disassemble_eq_line hp, hout] at h
  have hafter := i.isTail_afterFirstWord Opcode.isSeparator_columns fun op => p.isTail_comment op i
  exact hfirst (i.isWord_firstWord.inj (by decide) hafter (isTail_append hblank rfl _) h).1

end Prototype

/-- No two words have the same text, with defined opcodes or not.  Places in the code of
prototypes with the same line have the same instruction, or there is none at both; the
names and constants in the comments of the lines may be any. -/
theorem equal_texts_have_equal_words :
    (∀ i j : Instruction, i.text = j.text → i = j) ∧
    ∀ (p q : Prototype) (pc pc' : Nat),
      p.disassemble pc = q.disassemble pc' → p.code[pc]? = q.code[pc']? := by
  constructor
  · intro i j h
    rw [Instruction.text_eq_line, Instruction.text_eq_line] at h
    exact Instruction.line_inj (fun op => Opcode.isSeparator_labels op.layout) (fun _ => rfl)
      (fun _ => isTail_empty) (fun _ => isTail_empty) h
  · intro p q pc pc' h
    cases hp : p.code[pc]? with
    | none =>
      cases hq : q.code[pc']? with
      | none => rfl
      | some j => exact absurd h.symm (Prototype.disassemble_ne_of_none hq hp)
    | some i =>
      cases hq : q.code[pc']? with
      | none => exact absurd h (Prototype.disassemble_ne_of_none hp hq)
      | some j =>
        rw [Prototype.disassemble_eq_line hp, Prototype.disassemble_eq_line hq] at h
        rw [Instruction.line_inj Opcode.isSeparator_columns Opcode.length_columns
          (fun op => p.isTail_comment op i) (fun op => q.isTail_comment op j) h]

/-- An assignment of a constant to a field of an upvalue, with names that contain what looks
like a field and a constant. -/
def quotingPrototype (upvalue field : String) : Prototype :=
  ⟨none, 0, 0, 0, false, 1, #[.ofABC .setTabUp 0 256 257], #[1], #[.string field, .string "c"], [],
    #[some upvalue]⟩

/-- Two prototypes that differ in an upvalue and a constant have the same line, and the same
instruction there. -/
theorem quoted_names_share_word :
    let p := quotingPrototype "u" "a\" \"b"
    let q := quotingPrototype "u \"a\"" "b"
    p ≠ q ∧ p.disassemble 0 = "SETTABUP    0 256 257\t; u \"a\" \"b\" \"c\"" ∧
      p.disassemble 0 = q.disassemble 0 ∧ p.code[0]? = q.code[0]? := by
  intro p q
  have hline : p.disassemble 0 = q.disassemble 0 := by decide +kernel
  exact ⟨by decide +kernel, by decide +kernel, hline, equal_texts_have_equal_words.2 p q 0 0 hline⟩

end ScriptDebug
