import SourceCanvas.Proofs.Spelling

/-!
# Words and marks

A text that is put together from words and punctuators is read as just these, where each is followed
by something that it cannot go on with: a word by a character of no word (`startsWith_word`), a
punctuator by a blank or a brace (`startsWith_mark`), a bracket, a comma or a semicolon by anything
(`startsWith_single`). `Reads.token` and `Reads.blank` read a lexeme or one blank before a text.
-/

namespace SourceCanvas

/-- A token at an offset inside a line. -/
def Token.inLine (kind : TokenKind) (value : String) (offset : Nat) : Token :=
  ⟨kind, value, ⟨offset, offset + value.length⟩, false⟩

namespace Lexer

variable {allowed newline : Bool} {previous : Option Token} {offset stop : Nat} {kind : TokenKind}
  {first : Char} {run rest after : List Char} {tokens : List Token}
  {outcome : Except LexicalError Bool}

/-! ## Lexemes that look the same everywhere -/

/-- A text that is one word. -/
def isWhole : List Char → Bool
  | c :: rest => startsWord c && rest.all continuesWord
  | [] => false

theorem Bare.startsWith_of_plain (bare : Bare first (rest ++ after))
    (quote : first ≠ '"' ∧ first ≠ '\'' ∧ first ≠ '`') (solidus : first = '/' → allowed = false)
    (read : ∀ offset, plainPiece offset first (first :: (rest ++ after)) =
      .ok (.lexeme (rest.length + 1) kind)) :
    StartsWith allowed kind (first :: rest) after := by
  intro previous offset same
  refine ⟨first, rest ++ after, rfl, ?_⟩
  have division : ¬(first = '/' && regexAllowed previous) = true := by
    intro both
    obtain ⟨same', allows⟩ : first = '/' ∧ regexAllowed previous = true := by simpa using both
    rw [same, solidus same'] at allows
    cases allows
  rw [bare.piece, if_neg (by simp [quote]), if_neg quote.2.2, if_neg division, read]
  rfl

theorem bare_of_ne (space : isSpace first = false) (solidus : first ≠ '/') :
    Bare first rest where
  space := by simp [space]
  line := by
    rw [isPrefixOf_lineComment]
    rintro ⟨after, same⟩
    exact solidus (List.cons.inj same).1
  block := by
    rw [isPrefixOf_blockComment]
    rintro ⟨after, same⟩
    exact solidus (List.cons.inj same).1

theorem numberLength_of_not_isDecimal (digit : Text.isDecimal first = false)
    (point : first ≠ '.') (rest : List Char) : numberLength (first :: rest) = 0 := by
  have zero : first ≠ '0' := by
    rintro rfl
    exact absurd digit (by decide)
  have radix : radixLength (first :: rest) = 0 := by
    rw [radixLength.eq_def]
    split
    · next same => exact absurd (List.cons.inj same).1 zero
    · rfl
  simp [numberLength, radix, mantissaLength_cons point, digit]

theorem startsWord_cases (starts : startsWord first = true) :
    isSpace first = false ∧ Text.isDecimal first = false ∧
      first ∉ ['/', '"', '\'', '`', '.'] := by
  refine ⟨?_, ?_, fun member => ?_⟩
  · have inside := not_endsChunk_of_startsWord starts
    simp only [endsChunk, Bool.or_eq_false_iff] at inside
    exact inside.1.1
  · rw [startsWord, Bool.or_eq_true, Bool.and_eq_true, decide_eq_true_eq] at starts
    rcases starts with ⟨-, digit⟩ | rfl
    · simpa using digit
    · decide
  · have none : ∀ c ∈ ['/', '"', '\'', '`', '.'], startsWord c = false :=
      List.all_iff_forall_prop.mp (by decide)
    rw [none first member] at starts
    cases starts

/-- A word is read where none of its characters could follow. -/
theorem startsWith_word (whole : isWhole run = true)
    (ends : after.head?.any continuesWord = false) :
    StartsWith allowed .identifier run after := by
  cases run with
  | nil => cases whole
  | cons first rest =>
    obtain ⟨starts, goes⟩ : startsWord first = true ∧ rest.all continuesWord = true := by
      simpa [isWhole] using whole
    obtain ⟨space, digit, other⟩ := startsWord_cases starts
    simp only [List.mem_cons, List.not_mem_nil, or_false, not_or] at other
    obtain ⟨solidus, double, single, tick, point⟩ := other
    have behind : after.takeWhile continuesWord = [] := by
      cases after with
      | nil => rfl
      | cons c after => exact List.takeWhile_cons_of_neg (Bool.eq_false_iff.mp ends)
    have word : wordLength (first :: (rest ++ after)) = rest.length + 1 := by
      rw [wordLength, if_pos starts,
        List.takeWhile_append_of_pos (List.all_eq_true.mp goes), behind, List.append_nil]
      omega
    refine (bare_of_ne space solidus).startsWith_of_plain ⟨double, single, tick⟩
      (fun same => absurd same solidus) fun offset => ?_
    simp [plainPiece, numberLength_of_not_isDecimal digit point, word]

/-- A text that is one punctuator, and starts with no mark of a gap, a string or a number. -/
def isMark : List Char → Bool
  | c :: rest =>
    !isSpace c && !startsWord c && !Text.isDigit c && !(['"', '\'', '`', '.'].contains c) &&
      !"//".toList.isPrefixOf (c :: rest) && !"/*".toList.isPrefixOf (c :: rest) &&
      punctuatorLength (c :: rest) == rest.length + 1
  | [] => false

/-- A punctuator is read where no regular expression may start, before all that ends its chunk. -/
theorem startsWith_mark (mark : isMark run = true) (ends : chunk after = []) :
    StartsWith false .punctuator run after := by
  cases run with
  | nil => cases mark
  | cons first rest =>
    simp only [isMark, Bool.and_eq_true, Bool.not_eq_true', beq_iff_eq] at mark
    obtain ⟨⟨⟨⟨⟨⟨space, starts⟩, digit⟩, other⟩, line⟩, block⟩, length⟩ := mark
    simp only [List.contains_cons, List.contains_nil, Bool.or_false, Bool.or_eq_false_iff,
      beq_eq_false_iff_ne] at other
    have bare : Bare first (rest ++ []) := by
      rw [List.append_nil]
      exact ⟨by simp [space], ne_true_of_eq_false line, ne_true_of_eq_false block⟩
    have alone : StartsWith false .punctuator (first :: rest) [] := by
      refine bare.startsWith_of_plain ⟨other.1, other.2.1, other.2.2.1⟩ (fun _ => rfl)
        fun offset => ?_
      simp [plainPiece, wordLength, digit, other.2.2.2, starts, length]
    exact alone.congr (fun _ _ => rfl) ends.symm

/-- A punctuator that stands alone is read before everything. -/
theorem startsWith_single (single : first ∈ singles) :
    StartsWith allowed .punctuator [first] after := by
  have outside : ∀ c ∈ singles, isSpace c = false ∧ c ∉ ['/', '"', '\'', '`'] :=
    List.all_iff_forall_prop.mp (by decide)
  obtain ⟨space, other⟩ := outside first single
  simp only [List.mem_cons, List.not_mem_nil, or_false, not_or] at other
  have bare : Bare first ([] ++ after) := bare_of_ne space other.1
  exact bare.startsWith_of_plain other.2 (fun same => absurd same other.1) fun offset =>
    plainPiece_single single offset after

/-! ## Texts put together -/

/-- A lexeme is read before what is read behind it. -/
theorem Reads.token {value : String} (starts : StartsWith allowed kind value.toList after)
    (same : regexAllowed previous = allowed) (place : offset + value.length = stop)
    (later : Reads (some (.inLine kind value offset)) false stop after tokens outcome) :
    Reads previous false offset (value.toList ++ after)
      (.inLine kind value offset :: tokens) outcome := by
  obtain ⟨first, rest, parts, found⟩ := starts previous offset same
  have read := @Reads.lexeme previous false offset first rest value.toList after kind tokens
    outcome parts.symm found
  rw [String.ofList_toList, String.length_toList, place] at read
  rw [Token.inLine, place] at later ⊢
  rw [parts]
  exact read later

/-- One blank that starts no line is passed over. -/
theorem Reads.blank (solid : after.head?.any isSpace = false) (place : offset + 1 = stop)
    (later : Reads previous newline stop after tokens outcome) :
    Reads previous newline offset (' ' :: after) tokens outcome := by
  have behind : after.takeWhile isSpace = [] := by
    cases after with
    | nil => rfl
    | cons c after => exact List.takeWhile_cons_of_neg (Bool.eq_false_iff.mp solid)
  have found := piece_space (show isSpace ' ' = true by decide) previous offset after
  rw [behind] at found
  have parts : ' ' :: after = [' '] ++ after := rfl
  exact .gap parts found (by simpa [isNewline, place] using later)

end Lexer

end SourceCanvas
