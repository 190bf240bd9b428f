import Mathlib.Data.Bool.AllAny
import Mathlib.Data.List.Find
import SourceCanvas.Proofs.PieceRuns
import SourceCanvas.Text.Lines

/-!
# Chunks

A number, a word or a punctuator at the start of a text is found again where another text follows,
as long as that starts with the same *chunk*: what comes before the first character that can stand
behind the first one of none of them. Such characters are those of gaps, blanks, quotes and the
punctuators that stand alone, such as brackets. So the chunk is all that `numberLength`,
`wordLength` and `punctuatorLength` see of a text, but for one of these punctuators at its very start
(`numberLength_chunk`, `wordLength_chunk`, `punctuatorLength_chunk`).
-/

namespace SourceCanvas

/-! ## Blanks -/

namespace Text

/-- Two tables have no code point in common. -/
def apart (table table' : List (Nat × Nat)) : Bool :=
  table.all fun range => table'.all fun range' => range.2 < range'.1 || range'.2 < range.1

theorem apart_blank : apart CharTable.blank CharTable.alphanumeric = true ∧
    apart CharTable.blank CharTable.decimalDigit = true := by decide +kernel

theorem inRanges_of_apart {table table' : List (Nat × Nat)} (disjoint : apart table table' = true)
    {code : Nat} (member : inRanges table code = true) : inRanges table' code = false := by
  simp only [inRanges, List.any_eq_true, Bool.and_eq_true, decide_eq_true_eq] at member
  obtain ⟨range, inside, low, high⟩ := member
  simp only [inRanges, List.any_eq_false, Bool.and_eq_true, decide_eq_true_eq, not_and]
  intro range' inside' low' high'
  have gap := List.all_eq_true.mp (List.all_eq_true.mp disjoint range inside) range' inside'
  simp only [Bool.or_eq_true, decide_eq_true_eq] at gap
  omega

/-- Letters and digits by their codes. -/
theorem isAlphanum_eq (c : Char) : c.isAlphanum =
    (decide (65 ≤ c.val ∧ c.val ≤ 90) || (decide (97 ≤ c.val) && decide (c.val ≤ 122)) ||
      (decide (48 ≤ c.val) && decide (c.val ≤ 57))) :=
  rfl

theorem isWord_of_isBlank {c : Char} (blank : isBlank c = true) : isWord c = false := by
  rw [isBlank] at blank
  rw [isWord]
  split at blank
  · next small =>
    rw [if_pos small]
    simp [isAlphanum_eq, Char.ext_iff] at blank ⊢
    grind
  · next large =>
    rw [if_neg large]
    exact inRanges_of_apart apart_blank.1 blank

theorem isDecimal_of_isBlank {c : Char} (blank : isBlank c = true) : isDecimal c = false := by
  rw [isBlank] at blank
  rw [isDecimal, decimalValue?]
  split at blank
  · next small =>
    rw [if_pos small, if_neg]
    · rfl
    · simp [Char.isDigit, Char.ext_iff] at blank ⊢
      grind
  · next large =>
    rw [if_neg large]
    have absent := inRanges_of_apart apart_blank.2 blank
    rw [inRanges, List.any_eq_false] at absent
    simp only [Option.isSome_map, List.isSome_find?, List.any_eq_false]
    exact absent

end Text

namespace Lexer

open SourceCanvas.Text (isBlank isWord isDecimal)

variable {text text' run after after' : List Char}

/-! ## Chunks -/

/-- The punctuators that no other one has among its characters. -/
def singles : List Char := ['(', ')', '[', ']', '\x7b', '\x7d', ';', ',', ':']

/-- The marks that start a string or a template. -/
def quotes : List Char := ['"', '\'', '`']

/-- Characters that no number, word or punctuator has behind its first character: those of gaps and
of trimmed margins, quotes, and the punctuators that stand alone. -/
def endsChunk (c : Char) : Bool := isSpace c || isBlank c || (singles ++ quotes).contains c

/-- The start of a text that says what its first lexeme is, unless that is framed. -/
def chunk (text : List Char) : List Char := text.takeWhile fun c => !endsChunk c

/-- The characters between tokens are blank, but for the mark of byte orders. -/
theorem isBlank_of_isSpace {c : Char} (space : isSpace c = true) :
    isBlank c = true ∨ c = '\uFEFF' := by
  simp only [isSpace, Bool.or_eq_true, Bool.and_eq_true, decide_eq_true_eq, beq_iff_eq] at space
  rcases space with ((((rfl | inside) | code) | code) | code) | code
  · exact .inl (by decide)
  · have small : c.val < 128 := by grind
    exact .inl (by simp [isBlank, small, inside])
  · obtain rfl : c = '\u00A0' := Char.ext code
    exact .inl (by decide +kernel)
  · exact .inr (Char.ext code)
  · obtain rfl : c = '\u2028' := Char.ext code
    exact .inl (by decide +kernel)
  · obtain rfl : c = '\u2029' := Char.ext code
    exact .inl (by decide +kernel)

theorem endsChunk_cases {c : Char} (ending : endsChunk c = true) :
    isBlank c = true ∨ c = '\uFEFF' ∨ c ∈ singles ++ quotes := by
  rw [endsChunk, Bool.or_eq_true, Bool.or_eq_true, List.contains_iff_mem] at ending
  rcases ending with (space | blank) | mark
  · rcases isBlank_of_isSpace space with blank | mark
    · exact .inl blank
    · exact .inr (.inl mark)
  · exact .inl blank
  · exact .inr (.inr mark)

theorem isBlank_of_not_endsChunk {c : Char} (inside : endsChunk c = false) : isBlank c = false := by
  simp only [endsChunk, Bool.or_eq_false_iff] at inside
  exact inside.1.2

theorem not_endsChunk_of_isWord {c : Char} (word : isWord c = true) : endsChunk c = false := by
  refine Bool.eq_false_iff.mpr fun ending => ?_
  have none : ∀ c ∈ singles ++ quotes, isWord c = false := List.all_iff_forall_prop.mp (by decide)
  rcases endsChunk_cases ending with blank | rfl | mark
  · rw [Text.isWord_of_isBlank blank] at word
    cases word
  · exact absurd word (by decide +kernel)
  · rw [none c mark] at word
    cases word

theorem not_endsChunk_of_isDecimal {c : Char} (digit : isDecimal c = true) :
    endsChunk c = false := by
  refine Bool.eq_false_iff.mpr fun ending => ?_
  have none : ∀ c ∈ singles ++ quotes, isDecimal c = false :=
    List.all_iff_forall_prop.mp (by decide)
  rcases endsChunk_cases ending with blank | rfl | mark
  · rw [Text.isDecimal_of_isBlank blank] at digit
    cases digit
  · exact absurd digit (by decide +kernel)
  · rw [none c mark] at digit
    cases digit

theorem not_endsChunk_of_continuesWord {c : Char} (word : continuesWord c = true) :
    endsChunk c = false := by
  rw [continuesWord, Bool.or_eq_true, decide_eq_true_eq] at word
  rcases word with word | rfl
  · exact not_endsChunk_of_isWord word
  · decide

theorem not_endsChunk_of_startsWord {c : Char} (word : startsWord c = true) :
    endsChunk c = false := by
  rw [startsWord, Bool.or_eq_true, Bool.and_eq_true, decide_eq_true_eq] at word
  rcases word with ⟨word, -⟩ | rfl
  · exact not_endsChunk_of_isWord word
  · decide

theorem not_endsChunk_of_isNumberPart {c : Char} (part : isNumberPart c = true) :
    endsChunk c = false := by
  rw [isNumberPart, Bool.or_eq_true, decide_eq_true_eq] at part
  rcases part with digit | rfl
  · exact not_endsChunk_of_isDecimal digit
  · decide

theorem not_endsChunk_of_radixDigit {letter c : Char} {isRadixDigit : Char → Bool}
    (known : radixDigit? letter = some isRadixDigit) (digit : isRadixDigit c = true) :
    endsChunk c = false := by
  have word : isWord c = true := by
    rw [radixDigit?.eq_def] at known
    rw [isWord]
    split at known <;> cases known <;>
      simp [Text.isAlphanum_eq, Char.isDigit, Char.le_def, Char.ext_iff] at digit ⊢ <;> grind
  exact not_endsChunk_of_isWord word

theorem chunk_cons (c : Char) (rest : List Char) :
    chunk (c :: rest) = if endsChunk c then [] else c :: chunk rest := by
  cases ending : endsChunk c <;> simp [chunk, ending]

theorem takeWhile_chunk {p : Char → Bool} (inside : ∀ c, p c = true → endsChunk c = false) :
    (chunk text).takeWhile p = text.takeWhile p := by
  induction text with
  | nil => rfl
  | cons c rest ih =>
    rw [chunk_cons]
    cases holds : p c with
    | false =>
      split <;> simp [holds]
    | true =>
      simp [inside c holds, holds, ih]

theorem drop_chunk {count : Nat} (le : count ≤ (chunk text).length) :
    (chunk text).drop count = chunk (text.drop count) := by
  induction count generalizing text with
  | zero => rfl
  | succ count ih =>
    cases text with
    | nil => simp [chunk]
    | cons c rest =>
      rw [chunk_cons] at le ⊢
      split at le
      · simp at le
      · next inside =>
        rw [if_neg inside]
        exact ih (Nat.le_of_succ_le_succ le)

theorem wordLength_chunk (text : List Char) : wordLength (chunk text) = wordLength text := by
  cases text with
  | nil => rfl
  | cons c rest =>
    rw [chunk_cons]
    cases starts : startsWord c with
    | false => split <;> simp [wordLength, starts]
    | true =>
      have inside := not_endsChunk_of_startsWord starts
      simp [wordLength, starts, inside, takeWhile_chunk fun _ => not_endsChunk_of_continuesWord]

theorem bigMark_chunk {length : Nat} (le : length ≤ (chunk text).length) :
    bigMark length (chunk text) = bigMark length text := by
  rw [bigMark, bigMark, drop_chunk le]
  cases text.drop length with
  | nil => rfl
  | cons c rest =>
    rw [chunk_cons]
    split
    · next ending =>
      have other : c ≠ 'n' := fun same => absurd (same ▸ ending) (by decide)
      simp [other]
    · rfl

theorem chunk_cons_of_not {c : Char} (inside : endsChunk c = false) (rest : List Char) :
    chunk (c :: rest) = c :: chunk rest := by
  rw [chunk_cons, inside]
  rfl

theorem chunk_cons_of_ends {c : Char} (ending : endsChunk c = true) (rest : List Char) :
    chunk (c :: rest) = [] := by
  rw [chunk_cons, ending]
  rfl

theorem radixLength_chunk (text : List Char) : radixLength (chunk text) = radixLength text := by
  match text with
  | [] => rfl
  | [c] =>
    rw [chunk_cons]
    split <;> simp [radixLength, chunk]
  | c :: letter :: rest =>
    by_cases zero : c = '0'
    · subst zero
      rw [chunk_cons_of_not (by decide)]
      cases ending : endsChunk letter with
      | true =>
        rw [chunk_cons_of_ends ending]
        have absent : radixDigit? letter = none := by
          rw [radixDigit?.eq_def]
          split <;> first | rfl | exact absurd ending (by decide)
        simp [radixLength, absent]
      | false =>
        rw [chunk_cons_of_not ending]
        cases known : radixDigit? letter with
        | none => simp [radixLength, known]
        | some isRadixDigit =>
          have digits : (chunk rest).takeWhile isRadixDigit = rest.takeWhile isRadixDigit :=
            takeWhile_chunk fun _ => not_endsChunk_of_radixDigit known
          have same : chunk ('0' :: letter :: rest) = '0' :: letter :: chunk rest := by
            rw [chunk_cons_of_not (by decide), chunk_cons_of_not ending]
          have marked :
              bigMark (2 + (rest.takeWhile isRadixDigit).length) ('0' :: letter :: chunk rest) =
              bigMark (2 + (rest.takeWhile isRadixDigit).length) ('0' :: letter :: rest) := by
            rw [← same]
            refine bigMark_chunk ?_
            rw [same, ← digits, List.length_cons, List.length_cons]
            have := length_takeWhile_le isRadixDigit (chunk rest)
            omega
          simp only [radixLength, known, digits]
          generalize (rest.takeWhile isRadixDigit).length = count at marked ⊢
          cases count with
          | zero => rfl
          | succ count => exact marked
    · rw [chunk_cons]
      split <;> simp [radixLength, zero]

theorem isDecimal_of_endsChunk {c : Char} (ending : endsChunk c = true) : isDecimal c = false := by
  refine Bool.eq_false_iff.mpr fun digit => ?_
  rw [not_endsChunk_of_isDecimal digit] at ending
  cases ending

theorem exponentLength_chunk (text : List Char) :
    exponentLength (chunk text) = exponentLength text := by
  cases text with
  | nil => rfl
  | cons e rest =>
    by_cases mark : e = 'e' ∨ e = 'E'
    · have inside : endsChunk e = false := by rcases mark with rfl | rfl <;> decide
      rw [chunk_cons_of_not inside]
      have digits (text : List Char) :
          (chunk text).takeWhile isDecimal = text.takeWhile isDecimal :=
        takeWhile_chunk fun _ => not_endsChunk_of_isDecimal
      match rest with
      | [] => rfl
      | c :: rest =>
        by_cases sign : c = '+' ∨ c = '-'
        · have inside : endsChunk c = false := by rcases sign with rfl | rfl <;> decide
          rw [chunk_cons_of_not inside]
          rcases sign with rfl | rfl <;> simp [exponentLength, digits]
        · rw [not_or] at sign
          cases ending : endsChunk c with
          | true =>
            have same := digits (c :: rest)
            rw [chunk_cons_of_ends ending] at same ⊢
            simp [exponentLength, sign, ← same]
          | false =>
            have same := digits (c :: rest)
            rw [chunk_cons_of_not ending] at same ⊢
            simp [exponentLength, sign, same]
    · rw [not_or] at mark
      rw [chunk_cons]
      split <;> simp [exponentLength, mark]

/-- The length of a point with what lies behind it in a number, zero if there is none. -/
def fractionLength : List Char → Nat
  | '.' :: fraction => 1 + (fraction.takeWhile isNumberPart).length
  | _ => 0

theorem takeWhile_isNumberPart_chunk (text : List Char) :
    (chunk text).takeWhile isNumberPart = text.takeWhile isNumberPart :=
  takeWhile_chunk fun _ => not_endsChunk_of_isNumberPart

theorem fractionLength_chunk (text : List Char) :
    fractionLength (chunk text) = fractionLength text := by
  cases text with
  | nil => rfl
  | cons c fraction =>
    by_cases point : c = '.'
    · subst point
      rw [chunk_cons_of_not (by decide), fractionLength, fractionLength,
        takeWhile_isNumberPart_chunk]
    · rw [chunk_cons]
      split <;> simp [fractionLength, point]

theorem mantissaLength_cons {c : Char} (point : c ≠ '.') (rest : List Char) :
    mantissaLength (c :: rest) =
      if isDecimal c then
        (rest.takeWhile isNumberPart).length + 1 +
          fractionLength (rest.drop (rest.takeWhile isNumberPart).length)
      else 0 := by
  rw [mantissaLength.eq_def]
  split
  · next same => exact absurd (List.cons.inj same).1 point
  · next same =>
    obtain ⟨rfl, rfl⟩ := List.cons.inj same
    simp only [Nat.add_comm 1, List.drop_succ_cons]
    generalize rest.drop (rest.takeWhile isNumberPart).length = behind
    cases behind with
    | nil => rfl
    | cons d fraction =>
      by_cases point : d = '.'
      · subst point
        simp only [fractionLength, Nat.add_assoc]
      · simp [fractionLength, point]
  · next same => cases same

theorem mantissaLength_chunk (text : List Char) :
    mantissaLength (chunk text) = mantissaLength text := by
  cases text with
  | nil => rfl
  | cons c rest =>
    by_cases point : c = '.'
    · subst point
      rw [chunk_cons_of_not (by decide)]
      cases rest with
      | nil => rfl
      | cons d rest =>
        cases ending : endsChunk d with
        | true =>
          have other := isDecimal_of_endsChunk ending
          rw [chunk_cons_of_ends ending]
          simp [mantissaLength, other, show isDecimal '.' = false by decide]
        | false =>
          rw [chunk_cons_of_not ending]
          simp [mantissaLength, takeWhile_isNumberPart_chunk]
    · cases ending : endsChunk c with
      | true =>
        rw [chunk_cons_of_ends ending]
        simp [mantissaLength, point, isDecimal_of_endsChunk ending]
      | false =>
        have le : (rest.takeWhile isNumberPart).length ≤ (chunk rest).length := by
          rw [← takeWhile_isNumberPart_chunk]
          exact length_takeWhile_le ..
        rw [chunk_cons_of_not ending, mantissaLength_cons point, mantissaLength_cons point,
          takeWhile_isNumberPart_chunk, drop_chunk le, fractionLength_chunk]

theorem numberLength_chunk (text : List Char) : numberLength (chunk text) = numberLength text := by
  rw [numberLength, numberLength, radixLength_chunk, mantissaLength_chunk]
  have le : mantissaLength text ≤ (chunk text).length := by
    rw [← mantissaLength_chunk]
    exact mantissaLength_le _
  have exponent : exponentLength ((chunk text).drop (mantissaLength text)) =
      exponentLength (text.drop (mantissaLength text)) := by
    rw [drop_chunk le, exponentLength_chunk]
  have marked :
      bigMark (mantissaLength text + exponentLength (text.drop (mantissaLength text)))
          (chunk text) =
      bigMark (mantissaLength text + exponentLength (text.drop (mantissaLength text))) text := by
    refine bigMark_chunk ?_
    have := exponentLength_le ((chunk text).drop (mantissaLength text))
    rw [exponent, List.length_drop] at this
    omega
  rw [← exponent] at marked
  cases radixLength text with
  | succ length => rfl
  | zero =>
    generalize mantissaLength text = mantissa at exponent marked ⊢
    cases mantissa with
    | zero => rfl
    | succ mantissa =>
      show bigMark _ _ = bigMark _ _
      rw [marked, exponent]

theorem prefix_chunk {mark : List Char} (inside : (mark.all fun c => !endsChunk c) = true) :
    mark <+: chunk text ↔ mark <+: text := by
  induction mark generalizing text with
  | nil => simp
  | cons c mark ih =>
    rw [List.all_cons, Bool.and_eq_true, Bool.not_eq_true'] at inside
    cases text with
    | nil => simp [chunk]
    | cons d rest =>
      rw [chunk_cons, List.cons_prefix_cons]
      split
      · next ending =>
        have other : c ≠ d := by
          rintro rfl
          rw [inside.1] at ending
          cases ending
        simp [other]
      · rw [List.cons_prefix_cons, ih inside.2]

theorem punctuatorLength_chunk (other : ∀ c ∈ text.head?, c ∉ singles) :
    punctuatorLength (chunk text) = punctuatorLength text := by
  have same : punctuators.find? (fun mark => mark.toList.isPrefixOf (chunk text)) =
      punctuators.find? fun mark => mark.toList.isPrefixOf text := by
    refine List.find?_congr fun mark member => ?_
    rw [Bool.eq_iff_iff, List.isPrefixOf_iff_prefix, List.isPrefixOf_iff_prefix]
    have inside : ∀ mark ∈ punctuators, (mark.toList.all fun c => !endsChunk c) = true ∨
        mark.toList ∈ singles.map fun c => [c] := by
      decide +kernel
    rcases (inside mark member).imp_right List.mem_map.mp with inside | ⟨c, single, alone⟩
    · exact prefix_chunk inside
    · cases text with
      | nil => rfl
      | cons d rest =>
        have apart : c ≠ d := fun same => other d rfl (same ▸ single)
        rw [← alone, chunk_cons]
        split <;> simp [List.cons_prefix_cons, apart]
  rw [punctuatorLength, punctuatorLength, same]

/-! ## Texts with the same chunk -/

theorem chunk_append (same : chunk after = chunk after') (run : List Char) :
    chunk (run ++ after) = chunk (run ++ after') := by
  induction run with
  | nil => exact same
  | cons c run ih => rw [List.cons_append, List.cons_append, chunk_cons, chunk_cons, ih]

/-- What ends a chunk does so like the end of a text. -/
theorem chunk_append_of_ends {c : Char} (ending : endsChunk c = true) (text post : List Char) :
    chunk (text ++ c :: post) = chunk text := by
  have same : chunk (c :: post) = chunk [] := chunk_cons_of_ends ending post
  simpa using chunk_append same text

theorem take_chunk {length : Nat} (le : length ≤ (chunk text).length) :
    text.take length = (chunk text).take length := by
  obtain ⟨behind, same⟩ : chunk text <+: text := List.takeWhile_prefix _
  rw [← List.take_append_of_le_length le, same]

theorem not_endsChunk_of_mem_take {length : Nat} (le : length ≤ (chunk text).length) {c : Char}
    (member : c ∈ text.take length) : endsChunk c = false := by
  rw [take_chunk le] at member
  have inside := List.all_eq_true.mp List.all_takeWhile c (List.mem_of_mem_take member)
  simpa using inside

theorem wordLength_le_chunk (text : List Char) : wordLength text ≤ (chunk text).length := by
  rw [← wordLength_chunk]
  exact wordLength_le _

end Lexer

end SourceCanvas
