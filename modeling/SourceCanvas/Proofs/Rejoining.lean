import SourceCanvas.Program.Block
import SourceCanvas.Proofs.BodyText
import SourceCanvas.Proofs.Passages

/-!
# Tokens written below each other

The tokens of a text say what they are: written below each other, one after the other, they are read
as the same tokens (`tokenize_unlines`). What a lexeme is longest in, it is longest in every
beginning of it that still holds the lexeme (`Munches`), so a lexeme is found again where it stands
alone (`piece_alone`), and a line feed behind it is nothing that it could go on with
(`startsWith_line`). A solidus that divides, or that found no end for a regular expression in its
line, finds none before the line feed.
-/

namespace SourceCanvas

namespace Lexer

open SourceCanvas.Text (isBlank isDecimal)

variable {text run after : List Char}

/-! ## Longest beginnings -/

/-- What is read at the start of a text is read as well where the text ends earlier, if it still has
room there. -/
def Munches (read : List Char → Nat) : Prop :=
  ∀ text after, read (text ++ after) ≤ text.length → read (text ++ after) = read text

theorem takeWhile_append_of_fits {p : Char → Bool}
    (fits : ((text ++ after).takeWhile p).length ≤ text.length) :
    (text ++ after).takeWhile p = text.takeWhile p := by
  induction text with
  | nil => exact List.length_eq_zero_iff.mp (Nat.le_zero.mp fits)
  | cons c text ih =>
    rw [List.cons_append] at fits ⊢
    cases holds : p c with
    | false => simp [holds]
    | true =>
      rw [List.takeWhile_cons_of_pos holds] at fits ⊢
      rw [List.takeWhile_cons_of_pos holds, ih (Nat.le_of_succ_le_succ fits)]

theorem munches_wordLength : Munches wordLength := by
  intro text after fits
  cases text with
  | nil => exact Nat.le_zero.mp fits
  | cons c rest =>
    rw [List.cons_append, wordLength] at fits ⊢
    rw [wordLength]
    split
    · next word =>
      rw [if_pos word, List.length_cons, Nat.add_comm 1] at fits
      rw [takeWhile_append_of_fits (Nat.le_of_succ_le_succ fits)]
    · rfl

theorem le_bigMark (length : Nat) (text : List Char) : length ≤ bigMark length text := by
  rw [bigMark]
  split <;> omega

theorem munches_bigMark (length : Nat) : Munches (bigMark length) := by
  intro text after fits
  rw [bigMark, List.head?_drop] at fits ⊢
  rw [bigMark, List.head?_drop]
  by_cases inside : length < text.length
  · rw [List.getElem?_append_left inside]
  · have outside : text[length]? = none := List.getElem?_eq_none (by omega)
    rw [outside]
    split at fits
    · omega
    · next unmarked => rw [if_neg unmarked, if_neg (by simp)]

theorem radixLength_digits {letter : Char} {isRadixDigit : Char → Bool}
    (known : radixDigit? letter = some isRadixDigit) (rest : List Char) :
    radixLength ('0' :: letter :: rest) =
      if (rest.takeWhile isRadixDigit).length = 0 then 0
      else bigMark (2 + (rest.takeWhile isRadixDigit).length) ('0' :: letter :: rest) := by
  rw [radixLength, known]
  dsimp only
  split <;> simp_all

theorem radixLength_of_ne {c : Char} (other : c ≠ '0') (rest : List Char) :
    radixLength (c :: rest) = 0 := by
  rw [radixLength.eq_def]
  split
  · next same => exact absurd (List.cons.inj same).1 other
  · rfl

theorem radixLength_of_none {letter : Char} (unknown : radixDigit? letter = none)
    (rest : List Char) : radixLength ('0' :: letter :: rest) = 0 := by
  rw [radixLength, unknown]

/-- A number with a letter after its zero has a digit as well. -/
theorem radixLength_cases (text : List Char) : radixLength text = 0 ∨ 2 < radixLength text := by
  match text with
  | [] => exact .inl rfl
  | [c] => exact .inl (by simp [radixLength])
  | c :: letter :: rest =>
    by_cases zero : c = '0'
    · subst zero
      cases known : radixDigit? letter with
      | none => exact .inl (radixLength_of_none known rest)
      | some isRadixDigit =>
        rw [radixLength_digits known]
        split
        · exact .inl rfl
        · have := le_bigMark (2 + (rest.takeWhile isRadixDigit).length) ('0' :: letter :: rest)
          exact .inr (by omega)
    · exact .inl (radixLength_of_ne zero _)

theorem munches_radixLength : Munches radixLength := by
  intro text after fits
  -- a zero and a letter come before the first digit, so there is none in a shorter beginning
  have short (few : text.length < 2) : radixLength (text ++ after) = 0 :=
    (radixLength_cases _).resolve_right (by omega)
  match text with
  | [] => exact short (by simp)
  | [c] =>
    rw [short (by simp)]
    simp [radixLength]
  | c :: letter :: rest =>
    rw [List.cons_append, List.cons_append] at fits ⊢
    by_cases zero : c = '0'
    · subst zero
      cases known : radixDigit? letter with
      | none => rw [radixLength_of_none known, radixLength_of_none known]
      | some isRadixDigit =>
        rw [radixLength_digits known] at fits ⊢
        rw [radixLength_digits known]
        have marked := le_bigMark (2 + ((rest ++ after).takeWhile isRadixDigit).length)
          ('0' :: letter :: (rest ++ after))
        have digits : (rest ++ after).takeWhile isRadixDigit = rest.takeWhile isRadixDigit := by
          refine takeWhile_append_of_fits ?_
          rw [List.length_cons, List.length_cons] at fits
          split at fits <;> omega
        rw [digits] at fits ⊢
        split
        · rfl
        · next some =>
          rw [if_neg some] at fits
          exact munches_bigMark _ ('0' :: letter :: rest) after fits
    · rw [radixLength_of_ne zero, radixLength_of_ne zero]

theorem munches_fractionLength : Munches fractionLength := by
  intro text after fits
  cases text with
  | nil => exact Nat.le_zero.mp fits
  | cons c rest =>
    rw [List.cons_append] at fits ⊢
    by_cases point : c = '.'
    · subst point
      rw [fractionLength, List.length_cons, Nat.add_comm 1] at fits
      rw [fractionLength, fractionLength,
        takeWhile_append_of_fits (Nat.le_of_succ_le_succ fits)]
    · simp [fractionLength, point]

theorem mantissaLength_point (c : Char) (rest : List Char) :
    mantissaLength ('.' :: c :: rest) =
      if isDecimal c then 2 + (rest.takeWhile isNumberPart).length else 0 := rfl

theorem munches_mantissaLength : Munches mantissaLength := by
  intro text after fits
  match text with
  | [] => exact Nat.le_zero.mp fits
  | c :: rest =>
    rw [List.cons_append] at fits ⊢
    by_cases point : c = '.'
    · subst point
      -- a point alone is a number only with a digit behind it, which would not fit
      match rest, after with
      | [], [] => rfl
      | [], d :: after =>
        rw [List.nil_append, mantissaLength_point] at fits ⊢
        split at fits
        · simp only [List.length_cons, List.length_nil] at fits
          omega
        · next other =>
          rw [if_neg other]
          rfl
      | d :: rest, after =>
        rw [List.cons_append, mantissaLength_point] at fits ⊢
        rw [mantissaLength_point]
        split
        · next digit =>
          rw [if_pos digit, List.length_cons, List.length_cons] at fits
          have fits : ((rest ++ after).takeWhile isNumberPart).length ≤ rest.length := by omega
          rw [takeWhile_append_of_fits fits]
        · rfl
    · rw [mantissaLength_cons point] at fits ⊢
      rw [mantissaLength_cons point]
      split
      · next digit =>
        rw [if_pos digit, List.length_cons] at fits
        have whole : ((rest ++ after).takeWhile isNumberPart).length ≤ rest.length := by omega
        have digits := takeWhile_append_of_fits whole
        rw [digits] at fits whole ⊢
        rw [List.drop_append_of_le_length whole] at fits ⊢
        rw [munches_fractionLength _ after (by rw [List.length_drop]; omega)]
      · rfl

/-- The length of the sign at the start of a text. -/
def signLength : List Char → Nat
  | '+' :: _ | '-' :: _ => 1
  | _ => 0

theorem signLength_le (text : List Char) : signLength text ≤ text.length := by
  rw [signLength.eq_def]
  split <;> simp

theorem exponentLength_mark {e : Char} (mark : e = 'e' ∨ e = 'E') (rest : List Char) :
    exponentLength (e :: rest) =
      if ((rest.drop (signLength rest)).takeWhile isDecimal).length = 0 then 0
      else 1 + signLength rest +
        ((rest.drop (signLength rest)).takeWhile isDecimal).length := by
  have either : (e = 'e' || e = 'E') = true := by simpa using mark
  rw [exponentLength.eq_def]
  dsimp only
  rw [if_pos either, signLength.eq_def]
  split <;> split <;> simp_all

theorem munches_exponentLength : Munches exponentLength := by
  intro text after fits
  match text with
  | [] => exact Nat.le_zero.mp fits
  | e :: rest =>
    rw [List.cons_append] at fits ⊢
    by_cases mark : e = 'e' ∨ e = 'E'
    · rw [exponentLength_mark mark] at fits ⊢
      rw [exponentLength_mark mark]
      cases rest with
      | nil =>
        -- a mark without digits is no exponent, and digits would not fit
        split at fits
        · next none =>
          rw [if_pos none]
          rfl
        · rw [List.length_singleton] at fits
          omega
      | cons c rest =>
        have sign : signLength (c :: rest ++ after) = signLength (c :: rest) := by
          rw [List.cons_append, signLength.eq_def, signLength.eq_def]
          split <;> split <;> simp_all
        have behind : (c :: rest ++ after).drop (signLength (c :: rest)) =
            (c :: rest).drop (signLength (c :: rest)) ++ after :=
          List.drop_append_of_le_length (signLength_le (c :: rest))
        rw [sign, behind] at fits ⊢
        have digits : (((c :: rest).drop (signLength (c :: rest)) ++ after).takeWhile
            isDecimal).length ≤ ((c :: rest).drop (signLength (c :: rest))).length := by
          rw [List.length_drop]
          rw [List.length_cons] at fits
          split at fits <;> omega
        rw [takeWhile_append_of_fits digits]
    · rw [not_or] at mark
      simp [exponentLength, mark]

theorem numberLength_eq (text : List Char) :
    numberLength text =
      if radixLength text ≠ 0 then radixLength text
      else if mantissaLength text = 0 then 0
      else bigMark (mantissaLength text + exponentLength (text.drop (mantissaLength text))) text := by
  rw [numberLength]
  split <;> simp_all
  split <;> simp_all

theorem munches_numberLength : Munches numberLength := by
  intro text after fits
  rw [numberLength_eq] at fits ⊢
  rw [numberLength_eq]
  -- each part of the number fits where the whole does
  have radix : radixLength (text ++ after) = radixLength text := by
    refine munches_radixLength text after ?_
    split at fits <;> omega
  rw [radix] at fits ⊢
  split
  · rfl
  next none =>
  rw [if_neg none] at fits
  have mantissa : mantissaLength (text ++ after) = mantissaLength text := by
    refine munches_mantissaLength text after ?_
    split at fits
    · omega
    · exact Nat.le_trans (Nat.le_trans (Nat.le_add_right ..) (le_bigMark ..)) fits
  have behind : (text ++ after).drop (mantissaLength text) =
      text.drop (mantissaLength text) ++ after :=
    List.drop_append_of_le_length (mantissaLength_le text)
  rw [mantissa, behind] at fits ⊢
  split
  · rfl
  next whole =>
  rw [if_neg whole] at fits
  have inside := Nat.le_trans (le_bigMark ..) fits
  have exponent := munches_exponentLength (text.drop (mantissaLength text)) after
    (by rw [List.length_drop]; omega)
  rw [exponent] at fits ⊢
  exact munches_bigMark _ text after fits

theorem munches_punctuatorLength : Munches punctuatorLength := by
  intro text after fits
  have longer {mark : String} (starts : mark.toList <+: text) : mark.toList <+: text ++ after :=
    starts.trans (List.prefix_append ..)
  cases found : punctuators.find? fun mark => mark.toList.isPrefixOf (text ++ after) with
  | none =>
    have none : punctuators.find? (fun mark => mark.toList.isPrefixOf text) = none := by
      refine List.find?_eq_none.mpr fun mark member starts => ?_
      rw [List.isPrefixOf_iff_prefix] at starts
      refine List.find?_eq_none.mp found mark member ?_
      rw [List.isPrefixOf_iff_prefix]
      exact longer starts
    rw [punctuatorLength, punctuatorLength, found, none]
  | some mark =>
    rw [punctuatorLength, found] at fits
    dsimp only at fits
    obtain ⟨starts, before, others, parts, absent⟩ := List.find?_eq_some_iff_append.mp found
    rw [List.isPrefixOf_iff_prefix] at starts
    have some : punctuators.find? (fun mark => mark.toList.isPrefixOf text) = some mark := by
      refine List.find?_eq_some_iff_append.mpr ⟨?_, before, others, parts, fun mark' member => ?_⟩
      · rw [List.isPrefixOf_iff_prefix]
        refine List.prefix_of_prefix_length_le starts (List.prefix_append ..) ?_
        rwa [String.length_toList]
      · have absent := absent mark' member
        rw [Bool.not_eq_true', ← Bool.not_eq_true, List.isPrefixOf_iff_prefix] at absent ⊢
        exact fun starts => absent (longer starts)
    rw [punctuatorLength, punctuatorLength, found, some]

theorem regexRest_pos {inClass : Bool} {length : Nat}
    (found : regexRest inClass text = some length) : 0 < length := by
  fun_induction regexRest inClass text generalizing length <;> grind [Option.map_eq_some_iff]

/-- A regular expression that is found in a text is found where the text ends earlier, if it still
has room there. -/
theorem regexRest_of_append {inClass : Bool} {length : Nat}
    (found : regexRest inClass (text ++ after) = some length) (fits : length ≤ text.length) :
    regexRest inClass text = some length := by
  fun_induction regexRest inClass text generalizing length
  case case1 =>
    have := regexRest_pos found
    rw [List.length_nil] at fits
    omega
  case case2 inClass head rest ih =>
    rw [List.cons_append, List.cons_append, regexRest] at found
    obtain ⟨count, inner, rfl⟩ := Option.map_eq_some_iff.mp found
    rw [ih inner (Nat.le_of_add_le_add_right fits)]
    rfl
  case case3 inClass =>
    cases after with
    | nil => cases found
    | cons d after =>
      rw [List.singleton_append, regexRest] at found
      obtain ⟨count, inner, rfl⟩ := Option.map_eq_some_iff.mp found
      rw [List.length_singleton] at fits
      omega
  case case4 inClass rest escape escape' =>
    rw [List.cons_append, regexRest_cons (by decide), if_pos rfl] at found
    cases found
  case case5 ih =>
    rw [List.cons_append, regexRest_cons (by decide), if_neg (by decide), if_pos rfl] at found
    obtain ⟨count, inner, rfl⟩ := Option.map_eq_some_iff.mp found
    rw [ih inner (Nat.le_of_succ_le_succ fits)]
    rfl
  case case6 ih =>
    rw [List.cons_append, regexRest_cons (by decide), if_neg (by decide), if_neg (by decide),
      if_pos rfl] at found
    obtain ⟨count, inner, rfl⟩ := Option.map_eq_some_iff.mp found
    rw [ih inner (Nat.le_of_succ_le_succ fits)]
    rfl
  case case7 inClass c rest escape escape' inLine opening closing ended =>
    obtain ⟨rfl, rfl⟩ : c = '/' ∧ inClass = false := by simpa using ended
    rw [List.cons_append, regexRest_cons (by decide), if_neg inLine, if_neg opening,
      if_neg closing, if_pos ended] at found
    cases found
    rw [munches_wordLength rest after (by rw [List.length_cons] at fits; omega)]
  case case8 inClass c rest escape escape' inLine opening closing inside ih =>
    have plain : c ≠ '\\' := by
      rintro rfl
      cases rest with
      | nil => exact escape' rfl rfl
      | cons head rest => exact escape head rest rfl rfl
    rw [List.cons_append, regexRest_cons plain, if_neg inLine, if_neg opening, if_neg closing,
      if_neg inside] at found
    obtain ⟨count, inner, rfl⟩ := Option.map_eq_some_iff.mp found
    rw [ih inner (Nat.le_of_succ_le_succ fits)]
    rfl

/-! ## Lexemes alone -/

variable {previous : Option Token} {offset : Nat} {first : Char} {rest : List Char}
  {kind : TokenKind}

theorem plainPiece_of_append
    (found : plainPiece offset first (first :: rest ++ after) =
      .ok (.lexeme (first :: rest).length kind)) :
    plainPiece offset first (first :: rest) = .ok (.lexeme (first :: rest).length kind) := by
  have number := munches_numberLength (first :: rest) after
  have word := munches_wordLength (first :: rest) after
  have punctuator := munches_punctuatorLength (first :: rest) after
  rw [plainPiece] at found ⊢
  grind

theorem Bare.of_append (bare : Bare first (rest ++ after)) : Bare first rest := by
  have longer {mark : List Char} (starts : mark.isPrefixOf (first :: rest) = true) :
      mark.isPrefixOf (first :: (rest ++ after)) = true := by
    rw [List.isPrefixOf_iff_prefix] at starts ⊢
    exact starts.trans (List.prefix_append (first :: rest) after)
  exact ⟨bare.space, fun starts => bare.line (longer starts),
    fun starts => bare.block (longer starts)⟩

/-- A lexeme is found again where the text ends behind it, unless it is a solidus at which a regular
expression could start. -/
theorem piece_alone (found : piece previous offset first (rest ++ after) =
      .ok (.lexeme (first :: rest).length kind))
    (settled : first = '/' → kind = .punctuator → regexAllowed previous = false) :
    piece previous offset first rest = .ok (.lexeme (first :: rest).length kind) := by
  have bare := bare_of_piece found
  have alone : Bare first rest := bare.of_append
  have framed {frame : Frame} {kind' : TokenKind}
      (read : framed kind' offset frame (rest ++ after) =
        .ok (.lexeme (first :: rest).length kind)) :
      Lexer.framed kind' offset frame rest = .ok (.lexeme (first :: rest).length kind) := by
    obtain ⟨rfl, run, behind, parts, length, fills⟩ := fills_of_framed read
    obtain ⟨rfl, -⟩ := List.append_inj parts (Nat.succ.inj length)
    have again := fills.framed kind' offset []
    rwa [List.append_nil] at again
  rw [bare.piece] at found
  rw [alone.piece]
  split at found
  · next quote =>
    rw [if_pos quote]
    exact framed found
  next quote =>
  rw [if_neg quote]
  split at found
  · next tick =>
    rw [if_pos tick]
    exact framed found
  next tick =>
  rw [if_neg tick]
  split at found
  · next solidus =>
    rw [if_pos solidus]
    obtain ⟨rfl, allowed⟩ : first = '/' ∧ regexAllowed previous = true := by simpa using solidus
    rw [regexLength?_cons bare.line] at found
    rw [regexLength?_cons alone.line]
    cases ended : regexRest false (rest ++ after) with
    | none =>
      rw [ended] at found
      have punctuator := (Piece.lexeme.inj (Except.ok.inj found)).2
      rw [settled rfl punctuator.symm] at allowed
      cases allowed
    | some count =>
      rw [ended] at found
      cases found
      rw [regexRest_of_append ended (Nat.le_refl _)]
      rfl
  · next solidus =>
    rw [if_neg solidus]
    exact plainPiece_of_append found

/-- A solidus that is a punctuator stands alone or before an equals sign. -/
theorem rest_of_solidus (length : punctuatorLength ('/' :: rest ++ after) = ('/' :: rest).length) :
    rest = [] ∨ rest = ['='] := by
  cases found : punctuators.find? fun mark => mark.toList.isPrefixOf ('/' :: rest ++ after) with
  | none =>
    rw [punctuatorLength, found] at length
    cases length
  | some mark =>
    have length : mark.length = ('/' :: rest).length := by rwa [punctuatorLength, found] at length
    have starts : mark.toList <+: '/' :: rest ++ after := by simpa using List.find?_some found
    have same : mark.toList = '/' :: rest := by
      rw [← String.length_toList] at length
      refine (List.prefix_of_prefix_length_le starts (List.prefix_append ..) ?_).eq_of_length length
      rw [length]
    have few : ∀ mark ∈ punctuators, mark.toList.head? = some '/' →
        mark.toList = ['/'] ∨ mark.toList = ['/', '='] := by
      decide +kernel
    have member := List.mem_of_find?_eq_some found
    rcases few mark member (by rw [same]; rfl) with short | long
    · exact .inl (List.cons.inj (same.symm.trans short)).2
    · exact .inr (List.cons.inj (same.symm.trans long)).2

theorem endsChunk_of_line (line : ∀ c ∈ after.head?, c = '\n') :
    ∀ c ∈ after.head?, endsChunk c = true := by
  intro c head
  rw [line c head]
  decide

/-- A solidus is read as such where the line ends behind it. -/
theorem startsWith_solidus (short : rest = [] ∨ rest = ['='])
    (line : ∀ c ∈ after.head?, c = '\n') : StartsWith true .punctuator ('/' :: rest) after := by
  have ends := endsChunk_of_line line
  have endless : regexRest false after = none := by
    cases after with
    | nil => rfl
    | cons c after =>
      rw [line c rfl, regexRest_cons (by decide), if_pos rfl]
  have bare : Bare '/' (rest ++ after) := by
    have bare : Bare '/' (rest ++ []) := by
      rcases short with rfl | rfl
      all_goals exact ⟨by decide, by decide, by decide⟩
    exact bare.congr (chunk_before ends [])
  have none : regexRest false (rest ++ after) = none := by
    rcases short with rfl | rfl
    · exact endless
    · rw [List.singleton_append, regexRest_cons (by decide)]
      simp [endless]
  have length : punctuatorLength ('/' :: (rest ++ after)) = rest.length + 1 := by
    have same : chunk ('/' :: rest) = chunk ('/' :: (rest ++ after)) :=
      chunk_before ends ('/' :: rest)
    have other : ∀ rest, ∀ c ∈ ('/' :: rest).head?, c ∉ singles := by simp [singles]
    rw [← punctuatorLength_chunk (other _), ← same, punctuatorLength_chunk (other _)]
    rcases short with rfl | rfl <;> decide
  intro previous offset same
  refine ⟨'/', rest ++ after, rfl, ?_⟩
  rw [bare.piece, if_neg (by decide), if_neg (by decide), if_pos (by simp [same]),
    regexLength?_cons bare.line, none, length]
  rfl

/-- **A lexeme** is read as it is where the line ends behind it. -/
theorem startsWith_line (after : List Char) (found : piece previous offset first (rest ++ text) =
      .ok (.lexeme (first :: rest).length kind)) (line : ∀ c ∈ after.head?, c = '\n') :
    StartsWith (regexAllowed previous) kind (first :: rest) after ∧ isBlank first = false ∧
      ∃ c, (first :: rest).getLast? = some c ∧ isBlank c = false := by
  by_cases settled : first = '/' → kind = .punctuator → regexAllowed previous = false
  · have alone := piece_alone found settled
    obtain ⟨blank, run, behind, parts, length, last, -⟩ := stands_of_piece found settled
    obtain ⟨rfl, -⟩ := List.append_inj parts (Nat.succ.inj length)
    exact ⟨startsWith_of_piece alone (List.append_nil _).symm (endsChunk_of_line line)
      (.inr settled), blank, last⟩
  obtain ⟨rfl, rfl, allowed⟩ :
      first = '/' ∧ kind = .punctuator ∧ regexAllowed previous = true := by
    simpa using settled
  have bare := bare_of_piece found
  rw [bare.piece, if_neg (by decide), if_neg (by decide), if_pos (by simp [allowed]),
    regexLength?_cons bare.line] at found
  have length : punctuatorLength ('/' :: rest ++ text) = ('/' :: rest).length := by
    cases ended : regexRest false (rest ++ text) with
    | none => simpa [ended] using found
    | some length => simp [ended] at found
  have short := rest_of_solidus length
  rw [allowed]
  refine ⟨startsWith_solidus short line, by decide, ?_⟩
  rcases short with rfl | rfl
  · exact ⟨'/', rfl, by decide⟩
  · exact ⟨'=', rfl, by decide⟩

/-! ## Lines of tokens -/

/-- The tokens that are read in a text are spelled by their values, one in a line. -/
theorem Reads.spells_lines {newline : Bool} {tokens : List Token}
    {outcome : Except LexicalError Bool}
    (reads : Reads previous newline offset text tokens outcome) :
    Spells (regexAllowed previous) (Text.join '\n' (tokens.map fun token => token.value.toList))
      (tokens.map Token.lexeme) := by
  induction reads with
  | ended => exact .ended
  | stuck => exact .ended
  | gap parts found later ih => exact ih
  | @lexeme previous newline offset first rest run behind kind tokens _ parts found later ih =>
    obtain ⟨_, run, rfl⟩ := List.exists_cons_of_ne_nil
      (List.ne_nil_of_length_pos (length_pos_of_piece found))
    obtain ⟨rfl, rfl⟩ := List.cons.inj parts
    cases tokens with
    | nil =>
      obtain ⟨starts, blank, last⟩ := startsWith_line [] found nofun
      have spells := Spells.lexeme starts blank last .ended
      rw [List.append_nil] at spells
      rw [List.map_singleton, List.map_singleton, Text.join, String.toList_ofList]
      exact spells
    | cons token tokens =>
      rw [List.map_cons, List.map_cons, List.map_cons, Text.join, String.toList_ofList]
      obtain ⟨starts, blank, last⟩ := startsWith_line
        ('\n' :: Text.join '\n' ((token :: tokens).map fun token => token.value.toList)) found
        (by simp)
      exact .lexeme starts blank last (.space (by decide) ih)

end Lexer

/-- The tokens of a text with the one at its end, without their places. -/
theorem lexemes_of_contents {text : String} {lexemes : List (TokenKind × String)}
    (found : contents text = .ok lexemes) : ∃ tokens, tokenize text = .ok tokens ∧
      tokens.map Token.lexeme = lexemes ++ [(.eof, "")] := by
  rw [contents] at found
  cases read : tokenize text with
  | error error =>
    rw [read] at found
    cases found
  | ok tokens =>
    rw [read] at found
    cases found
    obtain ⟨before, newline, rfl, -⟩ := reads_of_tokenize read
    refine ⟨_, rfl, ?_⟩
    dsimp only
    rw [List.dropLast_concat, List.map_append]
    rfl

/-- **Tokens** written below each other, one in a line, are read as the same tokens: of the same
kinds, with the same values, up to the one at the end. -/
theorem tokenize_unlines {text : String} {tokens : List Token} (read : tokenize text = .ok tokens) :
    ∃ tokens', tokenize (unlines (tokens.dropLast.map Token.value)) = .ok tokens' ∧
      tokens'.map Token.lexeme = tokens.map Token.lexeme := by
  obtain ⟨before, newline, rfl, reads, matched⟩ := reads_of_tokenize read
  rw [List.dropLast_concat]
  have spells := reads.spells_lines
  rw [Text.join_eq_intercalate, ← Function.comp_def, ← List.map_map] at spells
  have text : (unlines (before.map Token.value)).toList =
      ['\n'].intercalate ((before.map Token.value).map String.toList) := by
    rw [unlines, String.toList_intercalate]
    rfl
  rw [← text] at spells
  obtain ⟨tokens, found, lexemes⟩ := lexemes_of_contents (contents_of_spells spells rfl matched)
  exact ⟨tokens, found, by rw [lexemes, List.map_append]; rfl⟩

/-- The tokens of a text that has nothing between them. -/
def closeTokens : List Token :=
  [⟨.identifier, "return", ⟨0, 6⟩, false⟩, ⟨.regex, "/[/]/g", ⟨6, 12⟩, false⟩,
    ⟨.punctuator, "/", ⟨12, 13⟩, false⟩, ⟨.number, "3", ⟨13, 14⟩, false⟩,
    ⟨.identifier, "abc", ⟨14, 17⟩, false⟩, ⟨.punctuator, "/=", ⟨17, 19⟩, false⟩,
    ⟨.punctuator, "/", ⟨19, 20⟩, false⟩, ⟨.template, "`$\x7b1\x7d`", ⟨20, 26⟩, false⟩,
    .atEnd 26 false]

/-- A regular expression, a division and a solidus that is neither are told apart again, and a
number stays apart from a word. -/
theorem tokenize_unlines_close :
    tokenize "return/[/]/g/3abc/=/`$\x7b1\x7d`" = .ok closeTokens ∧
    ∃ tokens, tokenize "return\n/[/]/g\n/\n3\nabc\n/=\n/\n`$\x7b1\x7d`" = .ok tokens ∧
      tokens.map Token.lexeme = closeTokens.map Token.lexeme := by
  have read : tokenize "return/[/]/g/3abc/=/`$\x7b1\x7d`" = .ok closeTokens := by decide +kernel
  have lines : unlines (closeTokens.dropLast.map Token.value) =
      "return\n/[/]/g\n/\n3\nabc\n/=\n/\n`$\x7b1\x7d`" := by
    decide +kernel
  exact ⟨read, lines ▸ tokenize_unlines read⟩

end SourceCanvas
