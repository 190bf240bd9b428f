import SourceCanvas.Token.Cursor
import SourceCanvas.Token.Lexer

/-!
# The layout of tokens

The tokens of a text lie one after the other: none is empty, each starts where those before it have
ended, and all end at the end of the text at the latest (`laid_of_tokenize`).

A reader sees the tokens of a window and the token at its end, the fence. The fence may be looked at
again and again, and a reader that waits for a bracket takes the fence for it. `Laid` therefore
allows two ends: tokens end before the fence starts, and only where none are left may the reading
have come to the end of the fence.
-/

namespace SourceCanvas

/-- Spans that lie inside each other are the same. -/
theorem Span.eq_of_within {span span' : Span} (start : span.start ≤ span'.start)
    (stop : span'.stop ≤ span.stop) (start' : span'.start ≤ span.start)
    (stop' : span.stop ≤ span'.stop) : span = span' := by
  cases span
  cases span'
  simp only at start stop start' stop'
  rw [Span.mk.injEq]
  omega

/-! ## Tokens in a window -/

/-- Tokens that lie one after the other from an offset on, before a fence. -/
def Laid (fence : Span) : Nat → List Token → Prop
  | lo, [] => lo ≤ fence.stop
  | lo, token :: rest =>
    lo ≤ token.start ∧ token.start < token.stop ∧ token.stop ≤ fence.start ∧
      Laid fence token.stop rest

namespace Laid

variable {fence : Span} {lo lo' : Nat} {tokens rest : List Token}

theorem weaken (laid : Laid fence lo tokens) (le : lo' ≤ lo) : Laid fence lo' tokens := by
  cases tokens with
  | nil => exact Nat.le_trans le laid
  | cons token rest =>
    obtain ⟨start, laid⟩ := laid
    exact ⟨Nat.le_trans le start, laid⟩

/-- Passing over tokens leaves the others where they are. -/
theorem suffix (laid : Laid fence lo tokens) (tail : rest <:+ tokens) : Laid fence lo rest := by
  induction tokens generalizing lo with
  | nil =>
    rw [List.suffix_nil.mp tail]
    exact laid
  | cons token others ih =>
    rcases List.suffix_cons_iff.mp tail with rfl | tail
    · exact laid
    · obtain ⟨start, filled, -, laid⟩ := laid
      exact (ih laid tail).weaken (by omega)

theorem le (laid : Laid fence lo tokens) (ordered : fence.start ≤ fence.stop) : lo ≤ fence.stop := by
  cases tokens with
  | nil => exact laid
  | cons token rest =>
    obtain ⟨start, filled, before, -⟩ := laid
    omega

/-- A token of the window and the tokens after it. -/
theorem split {before : List Token} {token : Token}
    (laid : Laid fence lo (before ++ token :: rest)) :
    lo ≤ token.start ∧ token.start < token.stop ∧ token.stop ≤ fence.start ∧
      Laid fence token.stop rest :=
  laid.suffix (List.suffix_append before (token :: rest))

/-- The tokens before a token are in the window that ends with it. -/
theorem window {before : List Token} {token : Token}
    (laid : Laid fence lo (before ++ token :: rest)) : Laid token.span lo before := by
  induction before generalizing lo with
  | nil =>
    obtain ⟨start, filled, -⟩ := laid
    show lo ≤ token.stop
    omega
  | cons first before ih =>
    obtain ⟨start, filled, -, laid⟩ := laid
    obtain ⟨start', -⟩ := laid.split
    exact ⟨start, filled, start', ih laid⟩

end Laid

/-! ## Lengths of pieces

Every piece of a text lies inside the text, and a lexeme is not empty. -/

namespace Lexer

theorem length_takeWhile_le {α : Type} (p : α → Bool) (text : List α) :
    (text.takeWhile p).length ≤ text.length :=
  (List.takeWhile_prefix p).length_le

theorem commentRest_le {text : List Char} {length : Nat} {newline : Bool}
    (found : commentRest text = some (length, newline)) : length ≤ text.length := by
  induction text generalizing length newline with
  | nil => simp [commentRest] at found
  | cons c rest ih =>
    rw [commentRest.eq_def] at found
    split at found
    · cases found
    · next heq =>
      cases heq
      obtain ⟨rfl, -⟩ := Prod.mk.inj (Option.some.inj found)
      simp
    · next heq =>
      cases heq
      obtain ⟨⟨inner, newline'⟩, found', same⟩ := Option.map_eq_some_iff.mp found
      obtain ⟨rfl, -⟩ := Prod.mk.inj same
      simpa using ih found'

theorem wordLength_le (text : List Char) : wordLength text ≤ text.length := by
  cases text with
  | nil => simp [wordLength]
  | cons c rest =>
    have := length_takeWhile_le continuesWord rest
    simp only [wordLength, List.length_cons]
    split <;> omega

theorem bigMark_le {length : Nat} {text : List Char} (le : length ≤ text.length) :
    bigMark length text ≤ text.length := by
  rw [bigMark]
  split
  · next marked =>
    have : text.drop length ≠ [] := by
      intro empty
      simp [empty] at marked
    have := List.length_pos_iff.mpr this
    rw [List.length_drop] at this
    omega
  · exact le

theorem radixLength_le (text : List Char) : radixLength text ≤ text.length := by
  rw [radixLength.eq_def]
  split
  · next letter rest =>
    split
    · next isRadixDigit _ =>
      have := length_takeWhile_le isRadixDigit rest
      split
      · omega
      · next count =>
        refine bigMark_le ?_
        simp only [List.length_cons]
        omega
    · omega
  · omega

theorem exponentLength_le (text : List Char) : exponentLength text ≤ text.length := by
  cases text with
  | nil => simp [exponentLength]
  | cons e rest =>
    have digits (sign : Nat) := length_takeWhile_le Text.isDecimal (rest.drop sign)
    simp only [List.length_drop] at digits
    rw [exponentLength.eq_def]
    simp only
    split
    · split
      · omega
      · split
        · have := digits 1
          simp only [List.length_cons] at this ⊢
          omega
        · have := digits 1
          simp only [List.length_cons] at this ⊢
          omega
        · have := digits 0
          simp only [List.length_cons] at this ⊢
          omega
    · omega

theorem mantissaLength_le (text : List Char) : mantissaLength text ≤ text.length := by
  rw [mantissaLength.eq_def]
  split
  · next c rest =>
    have := length_takeWhile_le isNumberPart rest
    simp only [List.length_cons]
    split <;> omega
  · next c rest _ =>
    have := length_takeWhile_le isNumberPart rest
    simp only [List.length_cons]
    split
    · split
      · next fraction found =>
        have := length_takeWhile_le isNumberPart fraction
        have := congrArg List.length found
        simp only [List.length_drop, List.length_cons] at this
        omega
      · omega
    · omega
  · omega

theorem numberLength_le (text : List Char) : numberLength text ≤ text.length := by
  rw [numberLength]
  split
  · split
    · omega
    · next mantissa =>
      refine bigMark_le ?_
      have := mantissaLength_le text
      have := exponentLength_le (text.drop (mantissaLength text))
      rw [List.length_drop] at this
      omega
  · exact radixLength_le text

/-- A scan ends after the offset where it started, inside the text. -/
theorem scanFrames_le {frames : List Frame} {text : List Char} {offset stop : Nat}
    (scanned : scanFrames offset frames text = .ok stop) :
    offset ≤ stop ∧ stop ≤ offset + text.length := by
  fun_induction scanFrames offset frames text <;> grind

theorem regexRest_le {inClass : Bool} {text : List Char} {length : Nat}
    (found : regexRest inClass text = some length) : length ≤ text.length := by
  fun_induction regexRest inClass text generalizing length <;>
    grind [wordLength_le, Option.map_eq_some_iff]

theorem regexLength_le {text : List Char} {length : Nat}
    (found : regexLength? text = some length) : 0 < length ∧ length ≤ text.length := by
  rw [regexLength?.eq_def] at found
  split at found
  · cases found
  · next rest _ =>
    obtain ⟨count, counted, rfl⟩ := Option.map_eq_some_iff.mp found
    have := regexRest_le counted
    simp only [List.length_cons]
    omega
  · cases found

theorem punctuatorLength_le (text : List Char) : punctuatorLength text ≤ text.length := by
  rw [punctuatorLength]
  split
  · next mark found =>
    have starts : mark.toList <+: text := by simpa using List.find?_some found
    rw [← String.length_toList]
    exact starts.length_le
  · omega

/-- A solidus that starts neither a comment nor a regular expression is a punctuator. -/
theorem punctuatorLength_solidus_pos (rest : List Char) : 0 < punctuatorLength ('/' :: rest) := by
  have found : (punctuators.find? fun mark => mark.toList.isPrefixOf ('/' :: rest)).isSome := by
    refine List.find?_isSome.mpr ⟨"/", by decide, ?_⟩
    simp
  obtain ⟨mark, found⟩ := Option.isSome_iff_exists.mp found
  have filled : ∀ mark ∈ punctuators, 0 < mark.length := by decide
  rw [punctuatorLength, found]
  exact filled mark (List.mem_of_find?_eq_some found)

/-! ## Pieces -/

theorem framed_lexeme {kind : TokenKind} {offset : Nat} {frame : Frame} {rest : List Char}
    {found : Piece} (scanned : framed kind offset frame rest = .ok found) :
    ∃ length, found = .lexeme length kind ∧ 0 < length ∧ length ≤ rest.length + 1 := by
  rw [framed] at scanned
  cases stopped : scanFrames (offset + 1) [frame] rest with
  | error error =>
    rw [stopped] at scanned
    cases scanned
  | ok stop =>
    rw [stopped] at scanned
    cases scanned
    have := scanFrames_le stopped
    exact ⟨stop - offset, rfl, by omega, by omega⟩

theorem plainPiece_lexeme {offset : Nat} {first : Char} {text : List Char} {found : Piece}
    (read : plainPiece offset first text = .ok found) :
    ∃ length kind, found = .lexeme length kind ∧ 0 < length ∧ length ≤ text.length := by
  have number : (if Text.isDigit first || first = '.' then numberLength text else 0) ≤
      text.length := by
    have := numberLength_le text
    split <;> omega
  have word := wordLength_le text
  have punctuator := punctuatorLength_le text
  rw [plainPiece] at read
  grind

/-- What is said about a piece at the start of a text: it lies inside the text, and a lexeme is not
empty. -/
def Piece.FitsIn (text : List Char) : Piece → Prop
  | .gap length _ => length ≤ text.length
  | .lexeme length _ => 0 < length ∧ length ≤ text.length

theorem fitsIn_of_piece {previous : Option Token} {offset : Nat} {first : Char}
    {rest : List Char} {found : Piece} (read : piece previous offset first rest = .ok found) :
    found.FitsIn (first :: rest) := by
  rw [piece] at read
  split at read
  · cases read
    exact length_takeWhile_le isSpace (first :: rest)
  split at read
  · cases read
    exact length_takeWhile_le _ (first :: rest)
  split at read
  · next opened =>
    split at read
    · next length newline closed =>
      cases read
      have opened : "/*".toList <+: first :: rest := by simpa using opened
      have two := opened.length_le
      have := commentRest_le closed
      rw [List.length_drop] at this
      simp only [Piece.FitsIn]
      simp at two
      grind
    · cases read
  split at read
  · obtain ⟨length, rfl, fits⟩ := framed_lexeme read
    exact fits
  split at read
  · obtain ⟨length, rfl, fits⟩ := framed_lexeme read
    exact fits
  split at read
  · next solidus =>
    split at read
    · next length found =>
      cases read
      exact regexLength_le found
    · cases read
      obtain ⟨rfl, -⟩ : first = '/' ∧ _ := by simpa using solidus
      exact ⟨punctuatorLength_solidus_pos rest, punctuatorLength_le _⟩
  · obtain ⟨length, kind, rfl, fits⟩ := plainPiece_lexeme read
    exact fits

/-- The tokens among the pieces of a text lie one after the other. -/
theorem laid_pieces {fence : Span} (filled : fence.start ≤ fence.stop) (fuel : Nat)
    {previous : Option Token} {newline : Bool} {offset : Nat} {text : List Char}
    (inside : offset + text.length ≤ fence.start) :
    Laid fence offset (pieces previous newline fuel offset text).1 := by
  induction fuel generalizing previous newline offset text with
  | zero =>
    have : offset ≤ fence.stop := by omega
    cases text <;> exact this
  | succ fuel ih =>
    cases text with
    | nil =>
      have : offset ≤ fence.stop := by omega
      exact this
    | cons first rest =>
      rw [pieces]
      split
      · have : offset ≤ fence.stop := by omega
        exact this
      · next length newline' found =>
        have fits : length ≤ (first :: rest).length := fitsIn_of_piece found
        exact (ih (by rw [List.length_drop]; omega)).weaken (by omega)
      · next length kind found =>
        obtain ⟨positive, fits⟩ : 0 < length ∧ length ≤ (first :: rest).length :=
          fitsIn_of_piece found
        have inside' : offset + length + ((first :: rest).drop length).length ≤ fence.start := by
          rw [List.length_drop]
          omega
        refine ⟨Nat.le_refl offset, ?_, ?_, ih inside'⟩
        · show offset < offset + length
          omega
        · show offset + length ≤ fence.start
          omega

end Lexer

/-- The tokens of a text lie one after the other, their brackets match, and one more stands at the
end. -/
theorem laid_of_tokenize {text : String} {tokens : List Token} (read : tokenize text = .ok tokens) :
    ∃ before newline, tokens = before ++ [.atEnd text.length newline] ∧
      Laid ⟨text.length, text.length⟩ 0 before ∧ Lexer.openBrackets [] before = .ok [] := by
  rw [tokenize, Lexer.tokenize] at read
  have laid : Laid ⟨text.length, text.length⟩ 0
      (Lexer.pieces none false text.toList.length 0 text.toList).1 :=
    Lexer.laid_pieces (Nat.le_refl _) _ (by simp [String.length_toList])
  generalize Lexer.pieces none false text.toList.length 0 text.toList = result at read laid
  obtain ⟨found, outcome⟩ := result
  simp only at read
  split at read
  · cases read
  · next matched =>
    split at read
    · cases read
    · cases read
    · next newline =>
      cases read
      exact ⟨found, newline, by rw [String.length_toList], laid, matched⟩

end SourceCanvas
