import Mathlib.Data.List.TakeWhile
import SourceCanvas.Proofs.BlockRanges
import SourceCanvas.Proofs.Brackets
import SourceCanvas.Proofs.Passages
import SourceCanvas.Proofs.QuotedTexts
import SourceCanvas.Proofs.Words

/-!
# Texts stroke by stroke

A text that is put together from lexemes and fillers has these lexemes as its tokens, at known
places (`Stroke.tokens`), as long as each stroke is one where it stands (`Stroke.Legible`): a lexeme
is read there, a filler ends there. Both are matters of what follows next, so strokes that are
legible can be put one after the other (`Stroke.legible_append`, `Stroke.Legible.reads`). A phrase
is what can stand before every gap and behind it, with its brackets paired (`Stroke.Phrase`); larger
texts are made of phrases with gaps and marks between them.
-/

namespace SourceCanvas

/-! ## Lexemes before other text -/

namespace Lexer

open SourceCanvas.Text (isDecimal isDigit)

variable {allowed : Bool} {first c : Char} {run rest after : List Char}

/-- What ends a chunk does not go on with a word. -/
theorem head_not_continuesWord {after : List Char} (ends : chunk after = []) :
    after.head?.any continuesWord = false := by
  cases after with
  | nil => rfl
  | cons c after =>
    refine Bool.eq_false_iff.mpr fun word => ?_
    rw [chunk_cons_of_not (not_endsChunk_of_continuesWord word)] at ends
    cases ends

theorem head_startsWord (whole : isWhole run = true) (after : List Char) :
    (run ++ after).head?.any startsWord = true := by
  cases run with
  | nil => cases whole
  | cons c rest => exact (Bool.and_eq_true_iff.mp whole).1

/-- No punctuator goes on with a character of a word. -/
theorem punctuatorLength_before_word (word : startsWord c = true) (run rest : List Char) :
    punctuatorLength (run ++ c :: rest) = punctuatorLength run := by
  have none : ∀ mark ∈ punctuators, (mark.toList.any startsWord) = false := by decide +kernel
  have same : ∀ mark ∈ punctuators,
      mark.toList.isPrefixOf (run ++ c :: rest) = mark.toList.isPrefixOf run := by
    intro mark member
    rw [Bool.eq_iff_iff, List.isPrefixOf_iff_prefix, List.isPrefixOf_iff_prefix]
    refine ⟨fun starts => ?_, fun starts => starts.trans (List.prefix_append _ _)⟩
    rcases List.prefix_or_prefix_of_prefix starts (List.prefix_append run (c :: rest)) with
      within | ⟨others, parts⟩
    · exact within
    · cases others with
      | nil => exact ⟨[], by simp [← parts]⟩
      | cons d others =>
        rw [← parts] at starts
        obtain ⟨rfl, -⟩ := List.cons_prefix_cons.mp ((List.prefix_append_right_inj run).mp starts)
        have inside : d ∈ mark.toList := by simp [← parts]
        have other := List.any_eq_false.mp (none mark member) d inside
        exact absurd word other
  simp only [punctuatorLength, List.find?_congr same]

/-- A punctuator that is no solidus is read before all that ends its chunk, and before a word. -/
theorem startsWith_sign (mark : isMark run = true) (other : run.head? ≠ some '/')
    (ends : chunk after = [] ∨ after.head?.any startsWord = true) :
    StartsWith allowed .punctuator run after := by
  cases run with
  | nil => cases mark
  | cons first rest =>
    have solidus : first ≠ '/' := fun same => other (congrArg some same)
    simp only [isMark, Bool.and_eq_true, Bool.not_eq_true', beq_iff_eq] at mark
    obtain ⟨⟨⟨⟨⟨⟨space, starts⟩, digit⟩, other⟩, -⟩, -⟩, length⟩ := mark
    simp only [List.contains_cons, List.contains_nil, Bool.or_false, Bool.or_eq_false_iff,
      beq_eq_false_iff_ne] at other
    have found {after : List Char}
        (whole : punctuatorLength (first :: rest ++ after) = rest.length + 1) :
        StartsWith allowed .punctuator (first :: rest) after := by
      refine (bare_of_ne space solidus).startsWith_of_plain ⟨other.1, other.2.1, other.2.2.1⟩
        (fun same => absurd same solidus) fun offset => ?_
      rw [List.cons_append] at whole
      simp [plainPiece, wordLength, digit, other.2.2.2, starts, whole]
    rcases ends with ends | word
    · have alone : StartsWith allowed .punctuator (first :: rest) [] :=
        found (by rw [List.append_nil, length])
      exact alone.congr (fun same => absurd same solidus) ends.symm
    · cases after with
      | nil => cases word
      | cons c after => exact found (by rw [punctuatorLength_before_word word, length])

/-- A point is read before a word. -/
theorem startsWith_point (word : after.head?.any startsWord = true) :
    StartsWith allowed .punctuator ['.'] after := by
  cases after with
  | nil => cases word
  | cons c after =>
    obtain ⟨-, digit, -⟩ := startsWord_cases word
    have mark : punctuatorLength ('.' :: c :: after) = 1 :=
      punctuatorLength_before_word word ['.'] after
    refine (bare_of_ne (by decide) (by decide)).startsWith_of_plain (by decide)
      (fun same => absurd same (by decide)) fun offset => ?_
    have number : numberLength ('.' :: c :: after) = 0 := by
      simp [numberLength, radixLength, mantissaLength, digit]
    have plain : wordLength ('.' :: c :: after) = 0 := rfl
    simp [plainPiece, number, plain, mark]

/-- Digits alone are one number. -/
theorem numberLength_digits (filled : run ≠ []) (digits : run.all Char.isDigit = true) :
    numberLength run = run.length := by
  obtain ⟨first, rest, rfl⟩ := List.exists_cons_of_ne_nil filled
  have digit : ∀ d ∈ first :: rest, d.isDigit = true := List.all_eq_true.mp digits
  have decimal : ∀ d ∈ first :: rest, isDecimal d = true := fun d member =>
    Text.isDecimal_of_isDigit (digit d member)
  have radix : radixLength (first :: rest) = 0 := by
    rw [radixLength.eq_def]
    split
    · next letter rest' same =>
      have letterDigit := digit letter (by rw [same]; simp)
      have none : radixDigit? letter = none := by
        rw [radixDigit?.eq_def]
        split <;> first | rfl | cases letterDigit
      rw [none]
    · rfl
  have point : first ≠ '.' := by
    rintro rfl
    cases digit '.' (List.mem_cons_self ..)
  have part : rest.takeWhile isNumberPart = rest :=
    List.takeWhile_eq_self_iff.mpr fun d member => by
      rw [isNumberPart, decimal d (List.mem_cons_of_mem _ member), Bool.true_or]
  have mantissa : mantissaLength (first :: rest) = rest.length + 1 := by
    rw [mantissaLength_cons point, if_pos (decimal first (List.mem_cons_self ..)), part,
      List.drop_length]
    rfl
  simp [numberLength, radix, mantissa, exponentLength, bigMark]

/-- Digits are read before all that ends their chunk. -/
theorem startsWith_digits (filled : run ≠ []) (digits : run.all Char.isDigit = true)
    (ends : chunk after = []) : StartsWith allowed .number run after := by
  have decimal : ∀ d ∈ run, isDecimal d = true := fun d member =>
    Text.isDecimal_of_isDigit (List.all_eq_true.mp digits d member)
  have length : numberLength (run ++ after) = run.length := by
    have inside : chunk run = run := List.takeWhile_eq_self_iff.mpr fun d member => by
      rw [not_endsChunk_of_isDecimal (decimal d member), Bool.not_false]
    have same : chunk (run ++ after) = run := by
      rw [chunk_append (show chunk after = chunk [] from ends), List.append_nil, inside]
    rw [← numberLength_chunk, same, numberLength_digits filled digits]
  obtain ⟨first, rest, rfl⟩ := List.exists_cons_of_ne_nil filled
  obtain ⟨digit, -⟩ := List.forall_mem_cons.mp decimal
  have inside := not_endsChunk_of_isDecimal digit
  simp only [endsChunk, Bool.or_eq_false_iff] at inside
  have other : ∀ d ∈ ['/', '"', '\'', '`'], first ≠ d := by
    rintro d member rfl
    have none : (['/', '"', '\'', '`'].any isDecimal) = false := by decide
    exact absurd digit (List.any_eq_false.mp none first member)
  refine (bare_of_ne inside.1.1 (other '/' (by decide))).startsWith_of_plain
    ⟨other '"' (by decide), other '\'' (by decide), other '`' (by decide)⟩
    (fun same => absurd same (other '/' (by decide))) fun offset => ?_
  rw [List.cons_append] at length
  simp [plainPiece, isDigit, digit, length]

/-- A quoted text is read before everything. -/
theorem startsWith_quote (contents : List Char) :
    StartsWith allowed .string (Text.quoteChars contents) after := by
  intro previous offset _
  have encloses : (Frame.quoted '"' offset).enclosure = .quoted '"' := rfl
  have fills := fills_escape contents
  rw [← encloses] at fills
  refine ⟨'"', Text.escape contents ++ ['"'] ++ after, ?_, ?_⟩
  · rw [Text.quoteChars, List.cons_append, List.cons_append]
  · rw [piece_quote, fills.framed .string offset after, Text.quoteChars, List.cons_append,
      List.length_cons]

end Lexer

/-! ## Strokes -/

open Lexer (StartsWith allows regexAllowed Reads)

/-- A stroke of a written text: a lexeme, or what stands between lexemes. -/
inductive Stroke where
  | lexeme (kind : TokenKind) (value : String)
  | gap (filler : Filler)

namespace Stroke

/-- The characters of a stroke. -/
def chars : Stroke → List Char
  | lexeme _ value => value.toList
  | gap filler => filler.chars

/-- The text of strokes one after the other. -/
def written : List Stroke → List Char
  | [] => []
  | stroke :: others => stroke.chars ++ written others

/-- The tokens of strokes at an offset. The first one starts a line if the strokes do. -/
def tokens : Bool → Nat → List Stroke → List Token
  | _, _, [] => []
  | newline, offset, lexeme kind value :: others =>
    ⟨kind, value, ⟨offset, offset + value.toList.length⟩, newline⟩ ::
      tokens false (offset + value.toList.length) others
  | newline, offset, gap filler :: others =>
    tokens (newline || filler.breaksLine) (offset + filler.chars.length) others

/-- Whether a token behind strokes starts a line. -/
def breaks : Bool → List Stroke → Bool
  | newline, [] => newline
  | _, lexeme _ _ :: others => breaks false others
  | newline, gap filler :: others => breaks (newline || filler.breaksLine) others

/-- Whether a solidus behind strokes starts a regular expression. -/
def allowed : Bool → List Stroke → Bool
  | before, [] => before
  | _, lexeme kind value :: others => allowed (allows (kind, value)) others
  | before, gap _ :: others => allowed before others

/-- Each stroke is one where it stands. -/
def Legible (after : List Char) : Bool → List Stroke → Prop
  | _, [] => True
  | before, lexeme kind value :: others =>
    StartsWith before kind value.toList (written others ++ after) ∧
      Legible after (allows (kind, value)) others
  | before, gap filler :: others =>
    filler.EndsBefore (written others ++ after) ∧ Legible after before others

variable {strokes others : List Stroke} {after : List Char} {newline before : Bool} {offset : Nat}

@[simp] theorem written_nil : written [] = [] := rfl

@[simp] theorem written_lexeme (kind : TokenKind) (value : String) (strokes : List Stroke) :
    written (lexeme kind value :: strokes) = value.toList ++ written strokes := rfl

theorem written_append (strokes others : List Stroke) :
    written (strokes ++ others) = written strokes ++ written others := by
  induction strokes with
  | nil => rfl
  | cons stroke strokes ih => rw [List.cons_append, written, ih, written, List.append_assoc]

theorem tokens_append (newline : Bool) (offset : Nat) (strokes others : List Stroke) :
    tokens newline offset (strokes ++ others) = tokens newline offset strokes ++
      tokens (breaks newline strokes) (offset + (written strokes).length) others := by
  induction strokes generalizing newline offset with
  | nil => rfl
  | cons stroke strokes ih =>
    cases stroke with
    | lexeme kind value => simp [tokens, breaks, written, chars, ih, Nat.add_assoc]
    | gap filler => simp [tokens, breaks, written, chars, ih, Nat.add_assoc]

theorem breaks_append (newline : Bool) (strokes others : List Stroke) :
    breaks newline (strokes ++ others) = breaks (breaks newline strokes) others := by
  induction strokes generalizing newline with
  | nil => rfl
  | cons stroke strokes ih => cases stroke <;> exact ih _

theorem legible_append :
    Legible after before (strokes ++ others) ↔
      Legible (written others ++ after) before strokes ∧
        Legible after (allowed before strokes) others := by
  induction strokes generalizing before with
  | nil => exact (and_iff_right trivial).symm
  | cons stroke strokes ih =>
    cases stroke <;>
      simp only [List.cons_append, Legible, allowed, ih, written_append, List.append_assoc,
        and_assoc]

/-- **What is legible is read** as its tokens, before all that is read behind it. -/
theorem Legible.reads {previous : Option Token} {tokens' : List Token}
    {outcome : Except LexicalError Bool} (legible : Legible after before strokes)
    (same : regexAllowed previous = before)
    (later : ∀ previous, regexAllowed previous = allowed before strokes →
      Reads previous (breaks newline strokes) (offset + (written strokes).length) after tokens'
        outcome) :
    Reads previous newline offset (written strokes ++ after)
      (tokens newline offset strokes ++ tokens') outcome := by
  induction strokes generalizing previous before newline offset with
  | nil => exact later previous same
  | cons stroke strokes ih =>
    cases stroke with
    | lexeme kind value =>
      obtain ⟨starts, legible⟩ := legible
      obtain ⟨first, rest, parts, found⟩ := starts previous offset same
      have behind : Reads
          (some ⟨kind, value, ⟨offset, offset + value.toList.length⟩, newline⟩) false
          (offset + value.toList.length) (written strokes ++ after)
          (tokens false (offset + value.toList.length) strokes ++ tokens') outcome :=
        ih legible rfl fun previous same => by
          have behind := later previous same
          rwa [written, List.length_append, ← Nat.add_assoc] at behind
      have read := @Reads.lexeme previous newline offset first rest value.toList
        (written strokes ++ after) kind _ outcome parts.symm found
          (by rw [String.ofList_toList]; exact behind)
      rw [← parts, String.ofList_toList] at read
      rw [written, List.append_assoc]
      exact read
    | gap filler =>
      obtain ⟨ends, legible⟩ := legible
      have behind : Reads previous (newline || filler.breaksLine) (offset + filler.chars.length)
          (written strokes ++ after) (tokens (newline || filler.breaksLine)
            (offset + filler.chars.length) strokes ++ tokens') outcome :=
        ih legible same fun previous same => by
          have behind := later previous same
          rwa [written, List.length_append, ← Nat.add_assoc] at behind
      have filled : filler.chars ≠ [] := by
        cases filler with
        | blanks run => exact ends.1
        | lineComment text => exact List.cons_ne_nil _ _
        | blockComment text => exact List.cons_ne_nil _ _
      obtain ⟨first, rest, parts⟩ := List.exists_cons_of_ne_nil
        (List.append_ne_nil_of_left_ne_nil filled (written strokes ++ after))
      rw [written, List.append_assoc]
      show Reads previous newline offset (filler.chars ++ (written strokes ++ after)) _ _
      rw [parts]
      exact .gap parts.symm (Lexer.piece_of_filler ends parts.symm previous offset) behind

/-! ### Common strokes -/

/-- A word. -/
abbrev word (value : String) : Stroke := lexeme .identifier value

/-- A punctuator. -/
abbrev sign (value : String) : Stroke := lexeme .punctuator value

/-- One blank. -/
def space : Stroke := gap (.blanks [' '])

@[simp] theorem written_space (strokes : List Stroke) :
    written (space :: strokes) = ' ' :: written strokes := rfl

@[simp] theorem tokens_space (newline : Bool) (offset : Nat) (strokes : List Stroke) :
    tokens newline offset (space :: strokes) = tokens newline (offset + 1) strokes :=
  congrArg (tokens · (offset + 1) strokes) (Bool.or_false newline)

/-- Lists of strokes with a comma between neighbours. -/
def listed : List (List Stroke) → List Stroke
  | [] => []
  | [item] => item
  | item :: next :: items => item ++ sign "," :: space :: listed (next :: items)

theorem written_listed (items : List (List Stroke)) :
    written (listed items) = [',', ' '].intercalate (items.map written) := by
  induction items with
  | nil => rfl
  | cons item items ih =>
    cases items with
    | nil => simp [listed]
    | cons next items =>
      rw [listed, written_append, List.map_cons, List.map_cons, List.intercalate_cons_cons,
        ← List.map_cons, ← ih, List.append_assoc]
      rfl

theorem tokens_listed {item : List Stroke} (unbroken : breaks newline item = false)
    (next : List Stroke) (items : List (List Stroke)) :
    tokens newline offset (listed (item :: next :: items)) = tokens newline offset item ++
      ⟨.punctuator, ",", ⟨offset + (written item).length, offset + (written item).length + 1⟩,
        false⟩ :: tokens false (offset + (written item).length + 2) (listed (next :: items)) := by
  rw [listed, tokens_append, unbroken]
  rfl

/-- Behind each item but the last one there is a comma. -/
theorem length_le_listed (newline : Bool) (offset : Nat) (items : List (List Stroke)) :
    items.length ≤ (tokens newline offset (listed items)).length + 1 := by
  induction items generalizing newline offset with
  | nil => exact Nat.zero_le _
  | cons item items ih =>
    cases items with
    | nil => exact Nat.le_add_left _ _
    | cons next items =>
      have later := ih false (offset + (written item).length + 2)
      rw [listed, tokens_append, List.length_append]
      have behind : (tokens (breaks newline item) (offset + (written item).length)
          (sign "," :: space :: listed (next :: items))).length =
          (tokens false (offset + (written item).length + 2) (listed (next :: items))).length + 1 :=
        rfl
      simp only [List.length_cons] at later ⊢
      omega

/-- The punctuators that are read before everything. -/
def singleSigns : List String := Lexer.singles.map String.singleton

theorem Legible.single {value : String} (single : value ∈ singleSigns)
    (later : Legible after (allows (.punctuator, value)) others) :
    Legible after before (sign value :: others) := by
  obtain ⟨c, member, rfl⟩ := List.mem_map.mp single
  refine ⟨?_, later⟩
  rw [String.toList_singleton]
  exact Lexer.startsWith_single member

theorem Legible.sign {value : String}
    (mark : Lexer.isMark value.toList = true ∧ value.toList.head? ≠ some '/')
    (ends : Lexer.chunk (written others ++ after) = [] ∨
      (written others ++ after).head?.any Lexer.startsWord = true)
    (later : Legible after (allows (.punctuator, value)) others) :
    Legible after before (sign value :: others) :=
  ⟨Lexer.startsWith_sign mark.1 mark.2 ends, later⟩

theorem Legible.word {value : String} (whole : Lexer.isWhole value.toList = true)
    (ends : (written others ++ after).head?.any Lexer.continuesWord = false)
    (later : Legible after (allows (.identifier, value)) others) :
    Legible after before (word value :: others) :=
  ⟨Lexer.startsWith_word whole ends, later⟩

/-- No word starts with a blank. -/
theorem solid_word {value : String} (whole : Lexer.isWhole value.toList = true) :
    (written (Stroke.word value :: others) ++ after).head?.any Lexer.isSpace = false := by
  have word := Lexer.head_startsWord whole (written others ++ after)
  rw [written_lexeme, List.append_assoc]
  revert word
  cases (value.toList ++ (written others ++ after)).head? with
  | none => exact nofun
  | some c => exact fun word => (Lexer.startsWord_cases word).1

/-- Blanks end before all that starts with none. -/
theorem Legible.blanks {run : List Char} (filled : run ≠ [])
    (blank : ∀ c ∈ run, Lexer.isSpace c = true)
    (solid : (written others ++ after).head?.any Lexer.isSpace = false)
    (later : Legible after before others) :
    Legible after before (gap (.blanks run) :: others) := by
  refine ⟨⟨filled, blank, fun c head => ?_⟩, later⟩
  rw [head] at solid
  exact solid

theorem Legible.space (solid : (written others ++ after).head?.any Lexer.isSpace = false)
    (later : Legible after before others) : Legible after before (space :: others) :=
  .blanks (List.cons_ne_nil _ _) (by simp [Lexer.isSpace]) solid later

/-! ### Brackets -/

/-- Whether a stroke is a bracket. -/
def isBracket : Stroke → Bool
  | lexeme kind value => kind == .punctuator &&
      ["(", "[", "\x7b", ")", "]", "\x7d"].contains value
  | gap _ => false

/-- Each bracket among strokes has its partner. -/
inductive Paired : List Stroke → Prop where
  | nil : Paired []
  | plain {stroke others} (plain : stroke.isBracket = false) (later : Paired others) :
      Paired (stroke :: others)
  | pair {opener inside others} (opens : opener ∈ ["(", "[", "\x7b"]) (inner : Paired inside)
      (later : Paired others) :
      Paired (sign opener :: (inside ++ sign (Lexer.closerOf opener) :: others))

theorem Paired.append (paired : Paired strokes) (paired' : Paired others) :
    Paired (strokes ++ others) := by
  induction paired with
  | nil => exact paired'
  | plain plain _ ih => exact .plain plain ih
  | pair opens inner _ _ ih =>
    rw [List.cons_append, List.append_assoc, List.cons_append]
    exact .pair opens inner ih

/-- A pair of brackets with nothing in it. -/
theorem Paired.empty {opener : String} (opens : opener ∈ ["(", "[", "\x7b"])
    (later : Paired others) : Paired (sign opener :: sign (Lexer.closerOf opener) :: others) :=
  .pair opens .nil later

/-- The tokens of paired strokes are balanced. -/
theorem Paired.balanced (paired : Paired strokes) (newline : Bool) (offset : Nat) :
    Lexer.Balanced (tokens newline offset strokes) := by
  induction paired generalizing newline offset with
  | nil => exact .nil
  | @plain stroke others plain _ ih =>
    cases stroke with
    | lexeme kind value =>
      simp only [isBracket, Bool.and_eq_false_iff, beq_eq_false_iff_ne, List.contains_cons,
        List.contains_nil, Bool.or_eq_false_iff] at plain
      refine .other ?_ ?_ (ih _ _)
      · simp only [Token.isOpener, Token.isPunctIn_iff]
        rintro ⟨kind', value'⟩
        simp_all
      · simp only [Token.isCloser, Token.isPunctIn_iff]
        rintro ⟨kind', value'⟩
        simp_all
    | gap filler => exact ih _ _
  | @pair opener inside others opens _ _ innerBalanced ih =>
    have pairs (span span' : Span) (newline newline' : Bool) :
        Lexer.Pairs ⟨.punctuator, opener, span, newline⟩
          ⟨.punctuator, Lexer.closerOf opener, span', newline'⟩ := by
      have closes : Lexer.closerOf opener ∈ [")", "]", "\x7d"] := by
        revert opener
        decide
      exact ⟨by simpa [Token.isOpener, Token.isPunctIn] using opens,
        by simpa [Token.isCloser, Token.isPunctIn] using closes, rfl⟩
    rw [tokens, tokens_append]
    exact .pair (pairs _ _ _ _) (innerBalanced _ _) (ih _ _)

/-! ### Phrases -/

/-- Strokes that can be read wherever a gap or a mark that stands alone follows, that do not start
with a gap, whose brackets are paired, and that do not end with a line break. -/
structure Phrase (strokes : List Stroke) : Prop where
  legible : ∀ {after before}, Lexer.chunk after = [] → Legible after before strokes
  solid : ∃ c rest, written strokes = c :: rest ∧ Lexer.isSpace c = false
  paired : Paired strokes
  unbroken : ∀ newline, breaks newline strokes = false

theorem Phrase.head (phrase : Phrase strokes) (after : List Char) :
    (written strokes ++ after).head?.any Lexer.isSpace = false := by
  obtain ⟨c, rest, same, solid⟩ := phrase.solid
  rw [same]
  exact solid

theorem Phrase.solid_append (phrase : Phrase strokes) (others : List Stroke) :
    ∃ c rest, written (strokes ++ others) = c :: rest ∧ Lexer.isSpace c = false := by
  obtain ⟨c, rest, same, solid⟩ := phrase.solid
  exact ⟨c, rest ++ written others, by rw [written_append, same, List.cons_append], solid⟩

/-- The text of a phrase is not empty. -/
theorem Phrase.text_ne {text : String} (phrase : Phrase strokes)
    (same : written strokes = text.toList) : text ≠ "" := by
  rintro rfl
  obtain ⟨c, rest, parts, -⟩ := phrase.solid
  rw [same] at parts
  cases parts

section Listed

variable {α : Type} {strokes : α → List Stroke} {after : List Char} {before : Bool}

/-- Phrases with commas between them are one. -/
theorem Phrase.listed (phrase : ∀ item, Phrase (strokes item)) (first : α) (others : List α) :
    Phrase (listed ((first :: others).map strokes)) := by
  induction others generalizing first with
  | nil => exact phrase first
  | cons next others ih =>
    have later := ih next
    refine ⟨fun ends => ?_, (phrase first).solid_append _, ?_, fun newline => ?_⟩
    · refine legible_append.mpr
        ⟨(phrase first).legible (Lexer.chunk_cons_of_ends (by decide) _), ?_⟩
      exact .single (by decide) (.space (later.head _) (later.legible ends))
    · exact (phrase first).paired.append (.plain rfl (.plain rfl later.paired))
    · rw [List.map_cons, List.map_cons, Stroke.listed, breaks_append]
      exact later.unbroken _

theorem legible_listed (phrase : ∀ item, Phrase (strokes item)) (items : List α)
    (ends : Lexer.chunk after = []) : Legible after before (listed (items.map strokes)) := by
  cases items with
  | nil => trivial
  | cons first others => exact (Phrase.listed phrase first others).legible ends

theorem paired_listed (phrase : ∀ item, Phrase (strokes item)) (items : List α) :
    Paired (listed (items.map strokes)) := by
  cases items with
  | nil => exact .nil
  | cons first others => exact (Phrase.listed phrase first others).paired

theorem breaks_listed (phrase : ∀ item, Phrase (strokes item)) (items : List α) :
    breaks false (listed (items.map strokes)) = false := by
  cases items with
  | nil => rfl
  | cons first others => exact (Phrase.listed phrase first others).unbroken false

end Listed

end Stroke

/-! ## Places in a source -/

/-- A text stands in a source at an offset. -/
def StandsAt (source : List Char) (offset : Nat) (text : List Char) : Prop :=
  ∃ front back, source = front ++ (text ++ back) ∧ front.length = offset

namespace StandsAt

variable {source text text' : List Char} {offset : Nat}

theorem slice (stands : StandsAt source offset text) :
    Span.slice ⟨offset, offset + text.length⟩ source = String.ofList text := by
  obtain ⟨front, back, rfl, rfl⟩ := stands
  exact Span.slice_append front text back

theorem slice_text {text : String} (stands : StandsAt source offset text.toList) :
    Span.slice ⟨offset, offset + text.toList.length⟩ source = text :=
  stands.slice.trans String.ofList_toList

/-- What a text is put together from stands at the length of what comes before. -/
theorem within {offset' : Nat} (stands : StandsAt source offset text) (front back : List Char)
    (parts : text = front ++ (text' ++ back)) (place : offset' = offset + front.length) :
    StandsAt source offset' text' := by
  obtain ⟨before, after, rfl, rfl⟩ := stands
  exact ⟨before ++ front, back ++ after, by simp only [parts, List.append_assoc],
    by rw [List.length_append, place]⟩

theorem moved {offset' : Nat} (stands : StandsAt source offset' text) (place : offset' = offset) :
    StandsAt source offset text := place ▸ stands

theorem left (stands : StandsAt source offset (text ++ text')) : StandsAt source offset text := by
  obtain ⟨front, back, rfl, rfl⟩ := stands
  exact ⟨front, text' ++ back, by rw [List.append_assoc], rfl⟩

theorem right (stands : StandsAt source offset (text ++ text')) :
    StandsAt source (offset + text.length) text' := by
  obtain ⟨front, back, rfl, rfl⟩ := stands
  exact ⟨front ++ text, back, by simp only [List.append_assoc], List.length_append⟩

end StandsAt

end SourceCanvas
