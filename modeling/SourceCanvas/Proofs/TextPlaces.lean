import Mathlib.Data.List.Induction
import SourceCanvas.Diagnostic
import SourceCanvas.Proofs.Chunks
import SourceCanvas.Text.Numeral

/-!
# Places in a text

An offset of a text has a line and a column, both counted from one. The offset of a place is the
inverse (`Diagnostic.placeOffset_of_offset`). It never lies behind the text, and it lies before it
just for a column of zero in the first line (`Diagnostic.placeOffset_nonneg_iff`). Lines and columns
are given in decimal digits of any script (`Text.readWhole?_of_isDecimal`).
-/

namespace SourceCanvas

namespace Text

variable {text before after digits : List Char} {offset start place : Nat} {c : Char}

/-! ## Lines -/

/-- The line of an offset. -/
def lineOf (text : List Char) (offset : Nat) : Nat := (text.take offset).count '\n' + 1

/-- The column of an offset. -/
def columnOf (text : List Char) (offset : Nat) : Nat :=
  ((text.take offset).reverse.takeWhile fun c => c != '\n').length + 1

theorem lineStartsFrom_append : lineStartsFrom offset (before ++ after) =
    lineStartsFrom offset before ++ lineStartsFrom (offset + before.length) after := by
  induction before generalizing offset with
  | nil => rfl
  | cons c before ih =>
    rw [List.cons_append, lineStartsFrom, lineStartsFrom, ih, List.length_cons,
      Nat.add_comm before.length, ← Nat.add_assoc]
    split
    · rfl
    · rfl

theorem length_lineStartsFrom : (lineStartsFrom offset text).length = text.count '\n' := by
  induction text generalizing offset with
  | nil => rfl
  | cons c text ih =>
    rw [lineStartsFrom, List.count_cons]
    split
    · next same => rw [List.length_cons, ih, if_pos (beq_iff_eq.mpr same)]
    · next other => rw [ih, if_neg (mt beq_iff_eq.mp other), Nat.add_zero]

theorem length_lineOffsets : (lineOffsets text).length = text.count '\n' + 1 := by
  rw [lineOffsets, List.length_cons, length_lineStartsFrom]

theorem lt_of_mem_lineStartsFrom (member : place ∈ lineStartsFrom offset text) :
    offset < place := by
  induction text generalizing offset with
  | nil => cases member
  | cons c text ih =>
    rw [lineStartsFrom] at member
    split at member
    · rcases List.mem_cons.mp member with rfl | later
      · exact Nat.lt_succ_self offset
      · exact Nat.lt_of_succ_lt (ih later)
    · exact Nat.lt_of_succ_lt (ih member)

/-- Only the first line starts at the start of the text. -/
theorem getElem?_lineOffsets_eq_zero {index : Nat}
    (found : (lineOffsets text)[index]? = some 0) : index = 0 := by
  cases index with
  | zero => rfl
  | succ index =>
    rw [lineOffsets, List.getElem?_cons_succ] at found
    exact (lt_of_mem_lineStartsFrom (List.mem_of_getElem? found)).false.elim

/-- The last line of a text starts where the text has its last line feed behind it. -/
theorem exists_lineStart (text : List Char) : ∃ start,
    (lineOffsets text)[text.count '\n']? = some start ∧
      start + (text.reverse.takeWhile fun c => c != '\n').length = text.length := by
  induction text using List.reverseRecOn with
  | nil => exact ⟨0, rfl, rfl⟩
  | append_singleton text c ih =>
    obtain ⟨start, found, ends⟩ := ih
    have count : text.count '\n' < (lineOffsets text).length := by
      rw [length_lineOffsets]
      exact Nat.lt_succ_self _
    have starts : lineOffsets (text ++ [c]) =
        lineOffsets text ++ lineStartsFrom text.length [c] := by
      rw [lineOffsets, lineStartsFrom_append, Nat.zero_add]
      rfl
    rw [starts, List.count_append, List.reverse_append, List.length_append]
    by_cases feed : c = '\n'
    · -- the last line is empty and starts at the end
      subst feed
      refine ⟨text.length + 1, ?_, rfl⟩
      rw [List.getElem?_append_right (by rw [length_lineOffsets]; exact le_rfl), length_lineOffsets]
      simp [lineStartsFrom]
    · refine ⟨start, ?_, ?_⟩
      · rw [List.count_singleton, if_neg (by simpa using feed), Nat.add_zero,
          List.getElem?_append_left count, found]
      · rw [List.reverse_singleton, List.singleton_append,
          List.takeWhile_cons_of_pos (by simpa using feed), List.length_cons, ← Nat.add_assoc, ends]
        rfl

/-- The line of an offset starts as many characters before it as its column says. -/
theorem getElem?_lineOffsets_lineOf (inside : offset ≤ text.length) :
    ∃ start, (lineOffsets text)[lineOf text offset - 1]? = some start ∧
      start + (columnOf text offset - 1) = offset := by
  obtain ⟨start, found, ends⟩ := exists_lineStart (text.take offset)
  rw [List.length_take, Nat.min_eq_left inside] at ends
  refine ⟨start, ?_, by rw [columnOf, Nat.add_sub_cancel, ends]⟩
  -- lines that start behind the offset come after its own
  have starts : lineOffsets text = lineOffsets (text.take offset) ++
      lineStartsFrom (text.take offset).length (text.drop offset) := by
    conv_lhs => rw [← List.take_append_drop offset text]
    rw [lineOffsets, lineStartsFrom_append, Nat.zero_add]
    rfl
  rw [starts, lineOf, Nat.add_sub_cancel, List.getElem?_append_left, found]
  rw [length_lineOffsets]
  exact Nat.lt_succ_self _

theorem lineOf_le (text : List Char) (offset : Nat) :
    lineOf text offset ≤ (lineOffsets text).length := by
  rw [lineOf, length_lineOffsets]
  exact Nat.succ_le_succ ((List.take_sublist offset text).count_le _)

/-! ## Numerals -/

/-- The number that decimal digits of any script stand for. -/
def decimalsValue (digits : List Char) : Nat :=
  digits.foldl (fun value c => 10 * value + (decimalValue? c).getD 0) 0

/-- Decimal digits, at least one. -/
def IsNumeral (digits : List Char) : Prop := digits ≠ [] ∧ digits.all isDecimal = true

theorem decimalValue?_lt {value : Nat} (decimal : decimalValue? c = some value) : value < 10 := by
  rw [decimalValue?] at decimal
  split at decimal
  · split at decimal
    · next digit =>
      cases decimal
      simp only [Char.isDigit, Bool.and_eq_true, decide_eq_true_eq, UInt32.le_iff_toNat_le] at digit
      exact Nat.sub_lt_left_of_lt_add digit.1 (Nat.lt_succ_of_le digit.2)
    · cases decimal
  · obtain ⟨range, -, rfl⟩ := Option.map_eq_some_iff.mp decimal
    exact Nat.mod_lt _ (by decide)

/-- The plain digit with a value. -/
theorem plainDigit_of_lt : ∀ value < 10, (Char.ofNat ('0'.toNat + value)).isDigit = true ∧
    (Char.ofNat ('0'.toNat + value)).toNat - '0'.toNat = value := by decide

/-- Plain digits of the same value stand for decimal digits of any script. -/
theorem plainDigits_of_isDecimal (decimal : digits.all isDecimal = true) :
    (plainDigits digits).all Char.isDigit = true ∧
      ∀ start,
        (plainDigits digits).foldl (fun value c => 10 * value + (c.toNat - '0'.toNat)) start =
          digits.foldl (fun value c => 10 * value + (decimalValue? c).getD 0) start := by
  induction digits with
  | nil => exact ⟨rfl, fun _ => rfl⟩
  | cons c digits ih =>
    rw [List.all_cons, Bool.and_eq_true] at decimal
    obtain ⟨plain, same⟩ := ih decimal.2
    obtain ⟨value, known⟩ := Option.isSome_iff_exists.mp decimal.1
    obtain ⟨digit, own⟩ := plainDigit_of_lt value (decimalValue?_lt known)
    rw [plainDigits] at plain same
    rw [plainDigits, List.map_cons, known]
    refine ⟨by rw [List.all_cons, digit, plain]; rfl, fun start => ?_⟩
    rw [List.foldl_cons, List.foldl_cons, same, known, own, Option.getD_some]

theorem dropLowLines?_of_isDigit {afterDigit : Bool} (plain : digits.all Char.isDigit = true) :
    dropLowLines? afterDigit digits = some digits := by
  induction digits generalizing afterDigit with
  | nil => rfl
  | cons c digits ih =>
    rw [List.all_cons, Bool.and_eq_true] at plain
    have noLow : c ≠ '_' := by
      rintro rfl
      cases plain.1
    rw [dropLowLines?]
    · rw [ih plain.2]
      rfl
    · rintro _ _ rfl
      exact (noLow rfl).elim
    · rintro rfl
      exact (noLow rfl).elim

theorem takeSign_of_isDigit (plain : digits.all Char.isDigit = true) :
    takeSign digits = (false, digits) := by
  unfold takeSign
  split
  · cases plain
  · cases plain
  · rfl

theorem withoutMargins_of_isDecimal (decimal : digits.all isDecimal = true) :
    withoutMargins digits = digits := by
  have solid {text : List Char} (decimal : text.all isDecimal = true) :
      text.dropWhile isMargin = text := by
    cases text with
    | nil => rfl
    | cons c text =>
      refine List.dropWhile_cons_of_neg fun blank => ?_
      rw [isMargin, Bool.and_eq_true] at blank
      rw [List.all_cons, isDecimal_of_isBlank blank.1] at decimal
      cases decimal
  rw [withoutMargins, solid decimal, solid (by rwa [List.all_reverse]), List.reverse_reverse]

/-- A numeral is read if it is not too long. -/
theorem readWhole?_of_isNumeral (numeral : IsNumeral digits) : readWhole? digits =
    if digits.length ≤ wholeDigitLimit then some (decimalsValue digits : Int) else none := by
  obtain ⟨filled, decimal⟩ := numeral
  obtain ⟨plain, same⟩ := plainDigits_of_isDecimal decimal
  have length : (plainDigits digits).length = digits.length := List.length_map _
  have nonempty : (plainDigits digits).isEmpty = false := by
    rw [List.isEmpty_eq_false_iff, ← List.length_pos_iff, length]
    exact List.length_pos_iff.mpr filled
  have value : digitsValue (plainDigits digits) = decimalsValue digits := same 0
  rw [readWhole?, withoutMargins_of_isDecimal decimal, takeSign_of_isDigit plain]
  dsimp only
  rw [dropLowLines?_of_isDigit plain, Option.bind_eq_bind, Option.bind_some, nonempty, plain,
    length, value]
  by_cases fits : digits.length ≤ wholeDigitLimit
  · rw [if_pos fits, decide_eq_false (Nat.not_lt.mpr fits)]
    rfl
  · rw [if_neg fits, decide_eq_true (Nat.lt_of_not_le fits)]
    rfl

end Text

namespace Diagnostic

open SourceCanvas.Text (lineOf columnOf lineOffsets)

variable {text : List Char}

/-! ## Offsets of places -/

theorem placeOffset_le (text : List Char) (line column : Int) :
    placeOffset text line column ≤ text.length := min_le_right _ _

/-- The place of an offset has this offset. -/
theorem placeOffset_of_offset {offset : Nat} (inside : offset ≤ text.length) :
    placeOffset text (lineOf text offset) (columnOf text offset) = offset := by
  obtain ⟨start, found, ends⟩ := Text.getElem?_lineOffsets_lineOf inside
  have last := Text.lineOf_le text offset
  have line : min ((lineOf text offset : Int) - 1) ((lineOffsets text).length - 1) =
      (lineOf text offset - 1 : Nat) := by
    rw [lineOf] at last ⊢
    omega
  rw [placeOffset]
  simp only [line, Int.toNat_natCast, List.getD, found, Option.getD_some]
  rw [columnOf] at ends ⊢
  omega

/-- A place lies in the text but for the column zero of the first line. -/
theorem placeOffset_nonneg_iff (text : List Char) (line column : Nat) :
    0 ≤ placeOffset text line column ↔ (column = 0 → 1 < line ∧ '\n' ∈ text) := by
  rw [placeOffset, Text.length_lineOffsets]
  generalize index : (min ((line : Int) - 1) ((text.count '\n' + 1 : Nat) - 1)).toNat = i
  have bound : i < (lineOffsets text).length := by
    rw [Text.length_lineOffsets]
    omega
  obtain ⟨start, found⟩ : ∃ start, (lineOffsets text)[i]? = some start :=
    ⟨_, List.getElem?_eq_getElem bound⟩
  have first : start = 0 ↔ i = 0 := by
    refine ⟨?_, ?_⟩
    · rintro rfl
      exact Text.getElem?_lineOffsets_eq_zero found
    · rintro rfl
      exact (Option.some.inj found).symm
  have feed : 0 < text.count '\n' ↔ '\n' ∈ text := List.count_pos_iff
  simp only [List.getD, found, Option.getD_some]
  rw [← feed]
  omega

end Diagnostic

end SourceCanvas
