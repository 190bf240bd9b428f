import SourceCanvas.Json.Basic
import SourceCanvas.Decimal.Notation
import SourceCanvas.Text.Display

/-!
# Values shown in messages

Messages write the truth values and null with a capital letter and texts in single quotes. A header
whose value is no text takes this form too.
-/

namespace SourceCanvas.Json

mutual

/-- A value as messages show it. -/
def display : Json → String
  | .null => "None"
  | .bool true => "True"
  | .bool false => "False"
  | .int value => toString value
  | .float value => Decimal.display Decimal.messageNames value
  | .string value => Text.display value
  | .array items => "[" ++ displayItems items ++ "]"
  | .object fields => "\x7b" ++ displayFields fields ++ "\x7d"

/-- The values of a list as messages show them. -/
def displayItems : List Json → String
  | [] => ""
  | [item] => display item
  | item :: next :: items => display item ++ ", " ++ displayItems (next :: items)

/-- The fields of an object as messages show them. -/
def displayFields : List (String × Json) → String
  | [] => ""
  | [(name, value)] => Text.display name ++ ": " ++ display value
  | (name, value) :: next :: fields =>
    Text.display name ++ ": " ++ display value ++ ", " ++ displayFields (next :: fields)

end

/-- A value as plain text: a text as it is, any other value as messages show it. -/
def plainText : Json → String
  | .string value => value
  | value => value.display

theorem toString_int_ne_empty (value : Int) : toString value ≠ "" := by
  intro empty
  have none := congrArg String.toList empty
  cases value <;> simp [toString, Int.repr, Nat.repr] at none

/-- A value that is given is no empty text. -/
theorem plainText_ne_empty {value : Json} (given : value.isGiven = true) :
    value.plainText ≠ "" := by
  cases value with
  | null => cases given
  | bool value =>
    cases value with
    | false => cases given
    | true => decide +kernel
  | int value => exact toString_int_ne_empty value
  | float value => exact Decimal.display_ne_empty (by decide) (by decide) value
  | string value => exact bne_iff_ne.mp given
  | array items =>
    exact fun empty =>
      absurd (String.append_eq_empty_iff.mp (String.append_eq_empty_iff.mp empty).1).1 (by decide)
  | object fields =>
    exact fun empty =>
      absurd (String.append_eq_empty_iff.mp (String.append_eq_empty_iff.mp empty).1).1 (by decide)

end SourceCanvas.Json
