import SourceCanvas.Outline.Parser
import SourceCanvas.Proofs.Operations
import SourceCanvas.Proofs.Strokes

/-!
# Written types

The types of a small grammar (`WrittenType`), put together from plain names (`PlainName`), are
written so that closing angle brackets run together. Wherever a reader looks for the end of a type
it finds that of the whole type (`WrittenType.type?_strokes`), by the brackets that are open at each
token. The same tokens may stand behind an operator that looks like an opening angle bracket. There
a reader tries to find a list of type arguments; that it finds none is a property of all tokens to
the end of the text (`Unclosed`), so each written construct hands it on from what stands behind it.
-/

namespace SourceCanvas

open Stroke (Legible word sign space)

/-! ## Names -/

namespace Text

variable {c : Char}

theorem isWord_of_isAlphanum (letter : c.isAlphanum = true) : isWord c = true := by
  have small : c.val < 128 := by
    rw [isAlphanum_eq] at letter
    simp only [Bool.or_eq_true, Bool.and_eq_true, decide_eq_true_eq] at letter
    have (bound : UInt32) (le : c.val ≤ bound) (lt : bound < 128) : c.val < 128 :=
      Nat.lt_of_le_of_lt (UInt32.le_iff_toNat_le.mp le) lt
    rcases letter with (letter | letter) | letter
    · exact this 90 letter.2 (by decide)
    · exact this 122 letter.2 (by decide)
    · exact this 57 letter.2 (by decide)
  rw [isWord, if_pos small, letter, Bool.true_or]

theorem isDecimal_of_isLower (lower : c.isLower = true) : isDecimal c = false := by
  obtain ⟨low, high⟩ : 97 ≤ c.toNat ∧ c.toNat ≤ 122 := by
    have bounds : (decide ('a'.val ≤ c.val) && decide (c.val ≤ 'z'.val)) = true := lower
    simpa [UInt32.le_iff_toNat_le] using bounds
  have small : c.val < 128 := UInt32.lt_iff_toNat_lt.mpr (Nat.lt_of_le_of_lt high (by decide))
  have digit : c.isDigit = false := by
    simp [Char.isDigit, UInt32.le_iff_toNat_le]
    omega
  simp [isDecimal, decimalValue?, small, digit]

end Text

/-- Words that some reader takes for more than a name: keywords, and words that are keywords in
some places only. -/
def reservedWords : List String :=
  keywords ++ statementStarters ++ parameterModifiers ++
    ["as", "satisfies", "from", "default", "extends", "get", "set"]

/-- A text of letters and digits that starts with a small letter. -/
def isPlain : List Char → Bool
  | c :: rest => c.isLower && rest.all Char.isAlphanum
  | [] => false

/-- A plain word that is not reserved. -/
structure PlainName where
  text : String
  plain : isPlain text.toList = true
  free : text ∉ reservedWords

namespace PlainName

theorem isAlphanum (name : PlainName) : name.text.toList.all Char.isAlphanum = true := by
  have plain := name.plain
  revert plain
  cases name.text.toList with
  | nil => exact nofun
  | cons c rest =>
    simp only [isPlain, Bool.and_eq_true, List.all_cons]
    rintro ⟨lower, others⟩
    have letter : (c.isUpper || c.isLower || c.isDigit) = true := by
      rw [lower, Bool.or_true, Bool.true_or]
    exact ⟨letter, others⟩

theorem isWhole (name : PlainName) : Lexer.isWhole name.text.toList = true := by
  have plain := name.plain
  have letters := name.isAlphanum
  revert plain letters
  cases name.text.toList with
  | nil => exact nofun
  | cons c rest =>
    simp only [isPlain, Lexer.isWhole, Lexer.startsWord, Lexer.continuesWord, Bool.and_eq_true,
      List.all_cons, List.all_eq_true, Bool.or_eq_true, Bool.not_eq_true']
    rintro ⟨lower, -⟩ ⟨letter, others⟩
    exact ⟨.inl ⟨Text.isWord_of_isAlphanum letter, Text.isDecimal_of_isLower lower⟩,
      fun d member => .inl (Text.isWord_of_isAlphanum (others d member))⟩

theorem text_ne (name : PlainName) : name.text ≠ "" := by
  intro none
  have plain := name.plain
  rw [none] at plain
  cases plain

theorem ne_of_mem (name : PlainName) {word : String} (reserved : word ∈ reservedWords) :
    name.text ≠ word := by
  rintro rfl
  exact name.free reserved

/-- A name is none of the words that are reserved. -/
theorem isWordIn (name : PlainName) (span : Span) (newline : Bool) (words : List String)
    (reserved : words ⊆ reservedWords) :
    Token.isWordIn ⟨.identifier, name.text, span, newline⟩ words = false := by
  refine Bool.eq_false_iff.mpr fun found => ?_
  exact name.free (reserved (Token.isWordIn_iff.mp found).2)

theorem isWord (name : PlainName) (span : Span) (newline : Bool) (word : String)
    (reserved : word ∈ reservedWords) :
    Token.isWord ⟨.identifier, name.text, span, newline⟩ word = false := by
  simp [Token.isWord, name.ne_of_mem reserved]

/-- A name is read where no character of a word follows. -/
theorem startsWith (name : PlainName) {allowed : Bool} {after : List Char}
    (ends : after.head?.any Lexer.continuesWord = false) :
    Lexer.StartsWith allowed .identifier name.text.toList after :=
  Lexer.startsWith_word name.isWhole ends

/-- A name starts with a character of a word. -/
theorem startsWord (name : PlainName) (after : List Char) :
    (name.text.toList ++ after).head?.any Lexer.startsWord = true :=
  Lexer.head_startsWord name.isWhole after

/-- A name is a phrase. -/
theorem phrase (name : PlainName) : Stroke.Phrase [word name.text] := by
  refine ⟨fun ends => .word name.isWhole (Lexer.head_not_continuesWord ends) trivial, ?_,
    .plain rfl .nil, fun _ => rfl⟩
  have starts := name.startsWord []
  rw [List.append_nil] at starts
  cases same : name.text.toList with
  | nil => rw [same] at starts; cases starts
  | cons c rest =>
    rw [same] at starts
    exact ⟨c, rest, by simp [Stroke.written, Stroke.chars, same], (Lexer.startsWord_cases starts).1⟩

end PlainName

/-! ## Types -/

/-- A type, or a list of types between angle brackets where that is what is asked for: a name, a
name with arguments, an array, or one of two. -/
inductive WrittenType : (several : Bool) → Type where
  | name (word : PlainName) : WrittenType false
  | applied (word : PlainName) (arguments : WrittenType true) : WrittenType false
  | array (element : WrittenType false) : WrittenType false
  | union (left right : WrittenType false) : WrittenType false
  | single (only : WrittenType false) : WrittenType true
  | list (first : WrittenType false) (others : WrittenType true) : WrittenType true

namespace WrittenType

/-- The text of a type. -/
def text {several : Bool} : WrittenType several → String
  | .name word => word.text
  | .applied word arguments => word.text ++ "<" ++ arguments.text ++ ">"
  | .array element => element.text ++ "[]"
  | .union left right => left.text ++ " | " ++ right.text
  | .single only => only.text
  | .list first others => first.text ++ ", " ++ others.text

/-- A run of closing angle brackets: up to three of them are one lexeme. -/
def closing : Nat → List Stroke
  | 0 => []
  | 1 => [sign ">"]
  | 2 => [sign ">>"]
  | count + 3 => sign ">>>" :: closing count

/-- The strokes of a type with closing angle brackets behind it. -/
def strokes {several : Bool} (closers : Nat) : WrittenType several → List Stroke
  | .name word' => word word'.text :: closing closers
  | .applied word' arguments => word word'.text :: sign "<" :: arguments.strokes (closers + 1)
  | .array element => element.strokes 0 ++ sign "[" :: sign "]" :: closing closers
  | .union left right => left.strokes 0 ++ space :: sign "|" :: space :: right.strokes closers
  | .single only => only.strokes closers
  | .list first others => first.strokes 0 ++ sign "," :: space :: others.strokes closers

variable {several : Bool} {closers : Nat} {after : List Char} {before newline : Bool}
  {offset : Nat}

theorem written_closing (count : Nat) :
    Stroke.written (closing count) = List.replicate count '>' := by
  fun_induction closing count with
  | case1 => rfl
  | case2 => rfl
  | case3 => rfl
  | case4 count ih =>
    rw [Stroke.written, ih]
    rfl

/-- The strokes of a type are its text, and the angle brackets. -/
theorem written_strokes (type : WrittenType several) (closers : Nat) :
    Stroke.written (type.strokes closers) =
      type.text.toList ++ List.replicate closers '>' := by
  induction type generalizing closers with
  | name word => rw [strokes, Stroke.written, written_closing]; rfl
  | applied word arguments ih =>
    simp [strokes, Stroke.written, Stroke.chars, ih, text, List.replicate_succ]
  | array element ih =>
    simp [strokes, Stroke.written_append, Stroke.written, Stroke.chars, ih, text, written_closing]
  | union left right leftWritten rightWritten =>
    simp [strokes, Stroke.written_append, Stroke.written, Stroke.chars, leftWritten, rightWritten,
      text, space, Filler.chars]
  | single only ih => rw [strokes, ih, text]
  | list first others firstWritten othersWritten =>
    simp [strokes, Stroke.written_append, Stroke.written, Stroke.chars, firstWritten,
      othersWritten, text, space, Filler.chars]

/-! ### How types are read -/

/-- Three closing angle brackets are one lexeme, whatever more of them follow. -/
theorem startsWith_closing {allowed : Bool} (after : List Char) :
    Lexer.StartsWith allowed .punctuator ['>', '>', '>'] ('>' :: after) := by
  refine (Lexer.bare_of_ne (by decide) (by decide)).startsWith_of_plain (by decide)
    (fun same => absurd same (by decide)) fun offset => ?_
  rfl

theorem legible_closing (ends : Lexer.chunk after = []) (count : Nat) :
    Legible after before (closing count) := by
  fun_induction closing count generalizing before with
  | case1 => trivial
  | case2 => exact .sign (by decide) (.inl ends) trivial
  | case3 => exact .sign (by decide) (.inl ends) trivial
  | case4 count ih =>
    cases count with
    | zero => exact .sign (by decide) (.inl ends) trivial
    | succ count =>
      refine ⟨?_, ih⟩
      rw [written_closing]
      exact startsWith_closing _

theorem paired_closing (count : Nat) : Stroke.Paired (closing count) := by
  fun_induction closing count with
  | case1 => exact .nil
  | case2 => exact .plain rfl .nil
  | case3 => exact .plain rfl .nil
  | case4 count ih => exact .plain rfl ih

theorem startsWord (type : WrittenType several) (after : List Char) (closers : Nat) :
    (Stroke.written (type.strokes closers) ++ after).head?.any Lexer.startsWord = true := by
  induction type generalizing closers after with
  | name word => rw [strokes, Stroke.written, List.append_assoc]; exact word.startsWord _
  | applied word arguments =>
    rw [strokes, Stroke.written, List.append_assoc]
    exact word.startsWord _
  | array element ih => rw [strokes, Stroke.written_append, List.append_assoc]; exact ih _ _
  | union left right ih => rw [strokes, Stroke.written_append, List.append_assoc]; exact ih _ _
  | single only ih => exact ih _ _
  | list first others ih => rw [strokes, Stroke.written_append, List.append_assoc]; exact ih _ _

theorem solid (type : WrittenType several) (closers : Nat) :
    (Stroke.written (type.strokes closers) ++ after).head?.any Lexer.isSpace = false := by
  have word := type.startsWord after closers
  revert word
  cases (Stroke.written (type.strokes closers) ++ after).head? with
  | none => exact nofun
  | some c => exact fun word => (Lexer.startsWord_cases word).1

theorem legible (type : WrittenType several) (ends : Lexer.chunk after = []) :
    Legible after before (type.strokes closers) := by
  induction type generalizing closers after before with
  | name word =>
    refine .word word.isWhole ?_ (legible_closing ends closers)
    rw [written_closing]
    cases closers with
    | zero => exact Lexer.head_not_continuesWord ends
    | succ closers => rfl
  | applied word arguments ih =>
    exact .word word.isWhole rfl
      (.sign (by decide) (.inr (arguments.startsWord _ _)) (ih ends))
  | array element ih =>
    exact Stroke.legible_append.mpr ⟨ih (Lexer.chunk_cons_of_ends (by decide) _),
      .single (by decide) (.single (by decide) (legible_closing ends closers))⟩
  | union left right leftLegible rightLegible =>
    exact Stroke.legible_append.mpr ⟨leftLegible (Lexer.chunk_cons_of_ends (by decide) _),
      .space rfl (.sign (by decide) (.inl (Lexer.chunk_cons_of_ends (by decide) _))
        (.space (right.solid _) (rightLegible ends)))⟩
  | single only ih => exact ih ends
  | list first others firstLegible othersLegible =>
    exact Stroke.legible_append.mpr ⟨firstLegible (Lexer.chunk_cons_of_ends (by decide) _),
      .single (by decide) (.space (others.solid _) (othersLegible ends))⟩

theorem paired (type : WrittenType several) (closers : Nat) :
    Stroke.Paired (type.strokes closers) := by
  induction type generalizing closers with
  | name word => exact .plain rfl (paired_closing closers)
  | applied word arguments ih => exact .plain rfl (.plain rfl (ih _))
  | array element ih => exact (ih 0).append (.empty (by decide) (paired_closing closers))
  | union left right leftPaired rightPaired =>
    exact (leftPaired 0).append (.plain rfl (.plain rfl (.plain rfl (rightPaired _))))
  | single only ih => exact ih _
  | list first others firstPaired othersPaired =>
    exact (firstPaired 0).append (.plain rfl (.plain rfl (othersPaired _)))

theorem breaks_closing (count : Nat) : Stroke.breaks false (closing count) = false := by
  fun_induction closing count with
  | case1 | case2 | case3 => rfl
  | case4 count ih => exact ih

theorem breaks_strokes (type : WrittenType several) (newline : Bool) (closers : Nat) :
    Stroke.breaks newline (type.strokes closers) = false := by
  induction type generalizing newline closers with
  | name word => exact breaks_closing closers
  | applied word arguments ih => exact ih _ _
  | array element ih => rw [strokes, Stroke.breaks_append]; exact breaks_closing closers
  | union left right leftBreaks rightBreaks =>
    rw [strokes, Stroke.breaks_append]
    exact rightBreaks _ _
  | single only ih => exact ih _ _
  | list first others firstBreaks othersBreaks =>
    rw [strokes, Stroke.breaks_append]
    exact othersBreaks _ _

/-- A type is a phrase. -/
theorem phrase (type : WrittenType several) : Stroke.Phrase (type.strokes closers) := by
  refine ⟨type.legible, ?_, type.paired closers,
    fun newline => type.breaks_strokes newline closers⟩
  have word := type.startsWord [] closers
  rw [List.append_nil] at word
  cases same : Stroke.written (type.strokes closers) with
  | nil => rw [same] at word; cases word
  | cons c rest =>
    rw [same] at word
    exact ⟨c, rest, rfl, (Lexer.startsWord_cases word).1⟩

/-! ### Where types end -/

open Extent (TypeEnd typeRun completesType typeArguments?)

/-- Marks that a type may end before. None of them is among its tokens outside of brackets. -/
def endMarks : List String := [";", ",", "=", ")", "\x7b"]

variable {ending : TypeEnd} {depth angle count : Nat} {token : Token} {previous : Option Token}
  {rest : List Token} {fence : Token}

/-- A token on the same line that is no end mark does not end a type. -/
theorem endsBefore_eq_false (stops : ending.stops ⊆ endMarks) (inLine : token.newlineBefore = false)
    (other : token.isPunctIn endMarks = false) : ending.endsBefore previous token = false := by
  have outside (marks : List String) (members : marks ⊆ endMarks) :
      token.isPunctIn marks = false := by
    refine Bool.eq_false_iff.mpr fun found => Bool.eq_false_iff.mp other ?_
    obtain ⟨kind, member⟩ := Token.isPunctIn_iff.mp found
    exact Token.isPunctIn_iff.mpr ⟨kind, members member⟩
  have brace : token.isPunct "\x7b" = false := by
    simpa [Token.isPunct, Token.isPunctIn] using outside ["\x7b"] (by decide)
  simp [TypeEnd.endsBefore, outside _ stops, brace, inLine]

/-- A mark that closes angle brackets does not end a type while one of them is open. -/
theorem typeRun_closer {mark : String} {others : List Stroke} (closes : mark ∈ [">", ">>", ">>>"])
    (opened : angle ≠ 0) (rest : List Token) :
    typeRun ending depth angle previous
        (Stroke.tokens newline offset (sign mark :: others) ++ rest) =
      typeRun ending depth (angle - mark.toList.length)
        (some ⟨.punctuator, mark, ⟨offset, offset + mark.toList.length⟩, newline⟩)
        (Stroke.tokens false (offset + mark.toList.length) others ++ rest) := by
  have other : mark ≠ "<" ∧ mark ∉ ["(", "[", "\x7b"] ∧ mark ∉ [")", "]", "\x7d"] := by
    revert mark
    decide
  simp [Stroke.tokens, typeRun, opened, Token.isPunct, Token.isOpener, Token.isCloser,
    Token.isPunctIn, Token.isAngleCloser, closes, other, String.length_toList]

/-- A token that is neither a bracket nor an angle bracket is passed over inside a type. -/
theorem typeRun_cons (goes : depth = 0 → angle = 0 → ending.endsBefore previous token = false)
    (other : token.isPunctIn ["(", "[", "\x7b", ")", "]", "\x7d", "<", ">", ">>", ">>>"] = false) :
    typeRun ending depth angle previous (token :: rest) =
      typeRun ending depth angle (some token) rest := by
  have outside (marks : List String)
      (members : marks ⊆ ["(", "[", "\x7b", ")", "]", "\x7d", "<", ">", ">>", ">>>"]) :
      token.isPunctIn marks = false := by
    refine Bool.eq_false_iff.mpr fun found => Bool.eq_false_iff.mp other ?_
    obtain ⟨kind, member⟩ := Token.isPunctIn_iff.mp found
    exact Token.isPunctIn_iff.mpr ⟨kind, members member⟩
  have angle' : token.isPunct "<" = false := by
    simpa [Token.isPunct, Token.isPunctIn] using outside ["<"] (by decide)
  rw [typeRun]
  split
  · next ends => simp_all
  · simp [Token.isOpener, Token.isCloser, Token.isAngleCloser, outside, angle']

/-- An opening angle bracket is added to the count of those that are open. -/
theorem typeRun_angle (stops : ending.stops ⊆ endMarks) {span : Span} :
    typeRun ending depth angle previous (⟨.punctuator, "<", span, false⟩ :: rest) =
      typeRun ending depth (angle + 1) (some ⟨.punctuator, "<", span, false⟩) rest := by
  rw [typeRun, endsBefore_eq_false stops rfl rfl]
  simp [Token.isOpener, Token.isCloser, Token.isPunctIn, Token.isPunct]

/-- A pair of square brackets is passed over. -/
theorem typeRun_brackets (stops : ending.stops ⊆ endMarks) {span span' : Span} :
    typeRun ending depth angle previous
        (⟨.punctuator, "[", span, false⟩ :: ⟨.punctuator, "]", span', false⟩ :: rest) =
      typeRun ending depth angle (some ⟨.punctuator, "]", span', false⟩) rest := by
  rw [typeRun, endsBefore_eq_false stops rfl rfl]
  simp [typeRun, Token.isOpener, Token.isCloser, Token.isPunctIn]

/-- Closing angle brackets are taken off the count of those that are open. -/
theorem typeRun_closing (le : count ≤ angle) {last : Token} (place : last.stop = offset)
    (complete : completesType (some last) = true) :
    ∃ last', last'.stop = offset + count ∧ completesType (some last') = true ∧
      ∀ rest, typeRun ending depth angle (some last)
        (Stroke.tokens false offset (closing count) ++ rest) =
          typeRun ending depth (angle - count) (some last') rest := by
  fun_induction closing count generalizing angle offset last with
  | case1 => exact ⟨last, place, complete, fun rest => rfl⟩
  | case2 =>
    have opened : angle ≠ 0 := by omega
    refine ⟨⟨.punctuator, ">", ⟨offset, offset + 1⟩, false⟩, rfl, rfl, fun rest => ?_⟩
    exact typeRun_closer (by decide) opened rest
  | case3 =>
    have opened : angle ≠ 0 := by omega
    refine ⟨⟨.punctuator, ">>", ⟨offset, offset + 2⟩, false⟩, rfl, rfl, fun rest => ?_⟩
    exact typeRun_closer (by decide) opened rest
  | case4 count ih =>
    have opened : angle ≠ 0 := by omega
    have le' : count ≤ angle - 3 := by omega
    obtain ⟨last', place', complete', run⟩ :=
      @ih (offset + 3) _ le' ⟨.punctuator, ">>>", ⟨offset, offset + 3⟩, false⟩ rfl rfl
    refine ⟨last', by rw [place', Nat.add_assoc, Nat.add_comm 3], complete', fun rest => ?_⟩
    have fewer : angle - (count + 3) = angle - 3 - count := by omega
    refine (typeRun_closer (by decide) opened rest).trans ((run rest).trans ?_)
    rw [← fewer]

theorem exists_strokes (type : WrittenType several) (closers : Nat) : ∃ (first : PlainName)
    (others : List Stroke), type.strokes closers = word first.text :: others := by
  induction type generalizing closers with
  | name word | applied word arguments => exact ⟨word, _, rfl⟩
  | array element ih =>
    obtain ⟨first, others, same⟩ := ih 0
    exact ⟨first, _, by rw [strokes, same, List.cons_append]⟩
  | union left right ih =>
    obtain ⟨first, others, same⟩ := ih 0
    exact ⟨first, _, by rw [strokes, same, List.cons_append]⟩
  | single only ih => exact ih closers
  | list first others ih =>
    obtain ⟨first', others', same⟩ := ih 0
    exact ⟨first', _, by rw [strokes, same, List.cons_append]⟩

/-- The tokens of a type are passed over as a whole. -/
theorem typeRun_strokes (type : WrittenType several) (stops : ending.stops ⊆ endMarks)
    (depth offset : Nat) (previous : Option Token) {closers angle : Nat} (le : closers ≤ angle)
    (inside : several = true → 1 ≤ closers) :
    ∃ last, last.stop = offset + (Stroke.written (type.strokes closers)).length ∧
      completesType (some last) = true ∧
      ∀ rest, typeRun ending depth angle previous
        (Stroke.tokens false offset (type.strokes closers) ++ rest) =
          typeRun ending depth (angle - closers) (some last) rest := by
  have plain {token : Token} (inLine : token.newlineBefore = false)
      (other : token.isPunctIn endMarks = false) {depth angle : Nat} {previous : Option Token} :
      depth = 0 → angle = 0 → ending.endsBefore previous token = false :=
    fun _ _ => endsBefore_eq_false stops inLine other
  have flat {closers : Nat} : false = true → 1 ≤ closers :=
    fun same => absurd same Bool.false_ne_true
  induction type generalizing depth offset previous closers angle with
  | name word' =>
    obtain ⟨last, place, complete, run⟩ := @typeRun_closing (offset + word'.text.toList.length)
      ending depth _ _ le ⟨.identifier, word'.text, ⟨offset, _⟩, false⟩ rfl rfl
    refine ⟨last, ?_, complete, fun rest => ?_⟩
    · simp [strokes, written_closing, place, Nat.add_assoc]
    · exact (typeRun_cons (plain rfl rfl) rfl).trans (run rest)
  | applied word' arguments ih =>
    obtain ⟨last, place, complete, run⟩ := ih depth (offset + word'.text.toList.length + 1)
      (some ⟨.punctuator, "<", ⟨offset + word'.text.toList.length, _⟩, false⟩)
      (Nat.succ_le_succ le) (fun _ => Nat.succ_pos closers)
    refine ⟨last, ?_, complete, fun rest => ?_⟩
    · simp [strokes, Stroke.written, Stroke.chars, place]
      omega
    · refine (typeRun_cons (plain rfl rfl) rfl).trans ?_
      refine (typeRun_angle stops).trans ((run rest).trans ?_)
      rw [Nat.succ_sub_succ]
  | array element ih =>
    obtain ⟨before, beforePlace, -, beforeRun⟩ := ih depth offset previous (Nat.zero_le angle) flat
    obtain ⟨last, place, complete, run⟩ := @typeRun_closing
      (offset + (Stroke.written (element.strokes 0)).length + 2)
      ending depth _ _ le ⟨.punctuator, "]", ⟨_, _⟩, false⟩ rfl rfl
    refine ⟨last, ?_, complete, fun rest => ?_⟩
    · simp [strokes, Stroke.written_append, Stroke.written, Stroke.chars, written_closing, place]
      omega
    · rw [strokes, Stroke.tokens_append, breaks_strokes, List.append_assoc, beforeRun]
      exact (typeRun_brackets stops).trans (run rest)
  | union left right leftRun rightRun =>
    obtain ⟨before, beforePlace, -, beforeRun⟩ :=
      leftRun depth offset previous (Nat.zero_le angle) flat
    obtain ⟨last, place, complete, run⟩ := rightRun depth
      (offset + (Stroke.written (left.strokes 0)).length + 1 + 1 + 1)
      (some ⟨.punctuator, "|", ⟨_, _⟩, false⟩) le flat
    refine ⟨last, ?_, complete, fun rest => ?_⟩
    · simp [strokes, Stroke.written_append, Stroke.written, Stroke.chars, space, Filler.chars,
        place]
      omega
    · rw [strokes, Stroke.tokens_append, breaks_strokes, List.append_assoc, beforeRun]
      exact (typeRun_cons (plain rfl rfl) rfl).trans (run rest)
  | single only ih => exact ih depth offset previous le flat
  | list first others firstRun othersRun =>
    have opened : angle ≠ 0 := by
      have := inside rfl
      omega
    obtain ⟨before, beforePlace, -, beforeRun⟩ :=
      firstRun depth offset previous (Nat.zero_le angle) flat
    obtain ⟨last, place, complete, run⟩ := othersRun depth
      (offset + (Stroke.written (first.strokes 0)).length + 1 + 1)
      (some ⟨.punctuator, ",", ⟨_, _⟩, false⟩) le inside
    refine ⟨last, ?_, complete, fun rest => ?_⟩
    · simp [strokes, Stroke.written_append, Stroke.written, Stroke.chars, space, Filler.chars,
        place]
      omega
    · rw [strokes, Stroke.tokens_append, breaks_strokes, List.append_assoc, beforeRun]
      exact (typeRun_cons (fun _ none => absurd none opened) rfl).trans (run rest)

/-- **A type is read** up to a token that it ends before. -/
theorem type?_strokes (type : WrittenType false) (stops : ending.stops ⊆ endMarks)
    (ends : ∀ last, completesType (some last) = true →
      ending.endsBefore (some last) token = true) (offset : Nat) :
    Extent.type? ⟨Stroke.tokens false offset (type.strokes 0) ++ token :: rest, fence⟩
        ending =
      some (⟨offset, offset + type.text.toList.length⟩, ⟨token :: rest, fence⟩) := by
  obtain ⟨last, place, complete, run⟩ :=
    type.typeRun_strokes stops 0 offset none (Nat.le_refl 0) nofun
  have stop : typeRun ending 0 0 (some last) (token :: rest) = (some last, token :: rest) := by
    rw [typeRun, ends last complete]
    rfl
  have start : (⟨Stroke.tokens false offset (type.strokes 0) ++ token :: rest, fence⟩ :
      Cursor).peek.start = offset := by
    obtain ⟨first, others, same⟩ := type.exists_strokes 0
    rw [same]
    rfl
  rw [Extent.type?, run (token :: rest), Nat.sub_zero, stop]
  simp only [start, place, Cursor.move, written_strokes, List.replicate_zero, List.append_nil]

/-! ### Types that are taken for arguments -/

/-- Closing angle brackets are taken off the depth while some stay open. -/
theorem typeArguments?_closer {mark : String} {others : List Stroke}
    (closes : mark ∈ [">", ">>", ">>>"]) {depth : Int} (below : mark.toList.length < depth)
    (rest : List Token) :
    typeArguments? depth (Stroke.tokens newline offset (sign mark :: others) ++ rest) =
      typeArguments? (depth - mark.toList.length)
        (Stroke.tokens false (offset + mark.toList.length) others ++ rest) := by
  have other : mark ≠ "<" ∧ mark ∈ Extent.typeArgumentPuncts := by
    clear below
    revert mark
    decide
  have positive : ¬depth - mark.toList.length ≤ 0 := by omega
  rw [String.length_toList] at positive
  simp [Stroke.tokens, typeArguments?, Token.isAngleCloser, Token.isPunctIn, closes, other,
    String.length_toList, positive]

/-- A token that is no wall and no angle bracket is passed over among type arguments. -/
theorem typeArguments?_cons {depth : Int}
    (goes : token.kind ∈ [.identifier, .string, .number] ∨
      token.isPunctIn [".", ",", "[", "]", "|", "(", ")", "\x7b", "\x7d", ":", ";", "?"] = true) :
    typeArguments? depth (token :: rest) = typeArguments? depth rest := by
  rcases goes with kind | mark
  · simp only [List.mem_cons, List.not_mem_nil, or_false] at kind
    rcases kind with kind | kind | kind <;> simp [typeArguments?, kind]
  · obtain ⟨kind, member⟩ := Token.isPunctIn_iff.mp mark
    have other : token.value ≠ "<" ∧ token.value ∉ [">", ">>", ">>>"] ∧
        token.value ∈ Extent.typeArgumentPuncts := by
      revert member
      generalize token.value = value
      revert value
      decide
    simp [typeArguments?, kind, other, Token.isAngleCloser, Token.isPunctIn]

theorem typeArguments?_closing (count : Nat) {depth : Int} (below : count < depth) (offset : Nat)
    (rest : List Token) :
    typeArguments? depth (Stroke.tokens false offset (closing count) ++ rest) =
      typeArguments? (depth - count) rest := by
  fun_induction closing count generalizing depth offset with
  | case1 => simp [Stroke.tokens]
  | case2 => exact typeArguments?_closer (by decide) below rest
  | case3 => exact typeArguments?_closer (by decide) below rest
  | case4 count ih =>
    have below' : (count : Int) < depth - 3 := by omega
    refine (typeArguments?_closer (by decide) (by simp; omega) rest).trans
      ((ih below' (offset + 3)).trans ?_)
    congr 1
    omega

/-- The tokens of a type are passed over among type arguments. -/
theorem typeArguments?_strokes (type : WrittenType several) (newline : Bool) (offset : Nat)
    {closers : Nat} {depth : Int} (below : closers < depth) (rest : List Token) :
    typeArguments? depth (Stroke.tokens newline offset (type.strokes closers) ++ rest) =
      typeArguments? (depth - closers) rest := by
  induction type generalizing newline offset closers depth rest with
  | name word =>
    exact (typeArguments?_cons (.inl (by simp))).trans (typeArguments?_closing closers below _ rest)
  | applied word arguments ih =>
    have below' : ((closers + 1 : Nat) : Int) < depth + 1 := by omega
    refine (typeArguments?_cons (.inl (by simp))).trans ?_
    refine Eq.trans ?_ ((ih false (offset + word.text.toList.length + 1) below' rest).trans ?_)
    · simp [Stroke.tokens, typeArguments?, Extent.typeArgumentPuncts]
    · congr 1
      omega
  | array element ih =>
    rw [strokes, Stroke.tokens_append, breaks_strokes, List.append_assoc,
      ih newline offset (by omega)]
    refine (typeArguments?_cons (.inr rfl)).trans ((typeArguments?_cons (.inr rfl)).trans ?_)
    simpa using typeArguments?_closing closers below _ rest
  | union left right leftRun rightRun =>
    rw [strokes, Stroke.tokens_append, breaks_strokes, List.append_assoc,
      leftRun newline offset (by omega), Int.natCast_zero, Int.sub_zero]
    refine (typeArguments?_cons (.inr rfl)).trans ?_
    exact rightRun false _ below rest
  | single only ih => exact ih newline offset below rest
  | list first others firstRun othersRun =>
    rw [strokes, Stroke.tokens_append, breaks_strokes, List.append_assoc,
      firstRun newline offset (by omega), Int.natCast_zero, Int.sub_zero]
    refine (typeArguments?_cons (.inr rfl)).trans ?_
    exact othersRun false _ below rest

end WrittenType

/-! ## Tokens behind an opening angle bracket -/

/-- Tokens that close no list of type arguments which is open before them. -/
def Unclosed (tokens : List Token) : Prop :=
  ∀ depth : Int, 0 < depth → Extent.typeArguments? depth tokens = none

namespace Unclosed

variable {several newline : Bool} {offset : Nat} {token : Token} {rest : List Token}

theorem nil : Unclosed [] := fun _ _ => rfl

/-- A mark that stands in no list of type arguments ends it. -/
theorem wall (kind : token.kind = .punctuator)
    (other : Extent.typeArgumentPuncts.contains token.value = false) :
    Unclosed (token :: rest) := by
  intro depth _
  rw [Extent.typeArguments?, kind]
  simp only [other, Bool.not_false, if_true]

theorem cons
    (goes : token.kind ∈ [.identifier, .string, .number] ∨
      token.isPunctIn [".", ",", "[", "]", "|", "(", ")", "\x7b", "\x7d", ":", ";", "?"] = true)
    (later : Unclosed rest) : Unclosed (token :: rest) := fun depth positive =>
  (WrittenType.typeArguments?_cons goes).trans (later depth positive)

theorem word {value : String} {span : Span} (later : Unclosed rest) :
    Unclosed (⟨.identifier, value, span, newline⟩ :: rest) :=
  cons (.inl (List.mem_cons_self ..)) later

theorem type (type : WrittenType several) (later : Unclosed rest) :
    Unclosed (Stroke.tokens newline offset (type.strokes 0) ++ rest) := fun depth positive => by
  rw [type.typeArguments?_strokes newline offset positive rest, Int.natCast_zero, Int.sub_zero]
  exact later depth positive

/-- Items with commas between them close no list if none of them does. -/
theorem listed {α : Type} {strokes : α → List Stroke}
    (item : ∀ {newline offset rest} (item : α), Unclosed rest →
      Unclosed (Stroke.tokens newline offset (strokes item) ++ rest))
    (items : List α) (later : Unclosed rest) :
    Unclosed (Stroke.tokens newline offset (Stroke.listed (items.map strokes)) ++ rest) := by
  induction items generalizing newline offset with
  | nil => exact later
  | cons first others ih =>
    cases others with
    | nil => exact item first later
    | cons next others =>
      rw [List.map_cons, List.map_cons, Stroke.listed, Stroke.tokens_append, List.append_assoc]
      exact item first (.cons (.inr rfl) ih)

end Unclosed

end SourceCanvas
