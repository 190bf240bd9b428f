import SourceCanvas.Catalog
import SourceCanvas.Number

/-!
# JSON values

Values as they stand in payloads, replies and settings. Whole numbers and floating-point numbers are
told apart, and the fields of an object keep their order. Equality is decidable; two floating-point
numbers are equal if they are the same value, so that zero differs from minus zero.
-/

namespace SourceCanvas

/-- A JSON value. -/
inductive Json where
  | null
  | bool (value : Bool)
  | int (value : Int)
  | float (value : Float)
  | string (value : String)
  | array (items : List Json)
  | object (fields : List (String × Json))
  deriving Inhabited

namespace Json

/-- The fields of an object. -/
abbrev Fields := Catalog Json

/-! ## Equality -/

mutual

/-- Whether two values are the same. -/
def same : Json → Json → Bool
  | .null, .null => true
  | .bool a, .bool b => a == b
  | .int a, .int b => a == b
  | .float a, .float b => decide (a = b)
  | .string a, .string b => a == b
  | .array as, .array bs => sameItems as bs
  | .object as, .object bs => sameFields as bs
  | _, _ => false

/-- Whether two lists hold the same values. -/
def sameItems : List Json → List Json → Bool
  | [], [] => true
  | a :: as, b :: bs => same a b && sameItems as bs
  | _, _ => false

/-- Whether two lists hold the same fields in the same order. -/
def sameFields : List (String × Json) → List (String × Json) → Bool
  | [], [] => true
  | (name, a) :: as, (other, b) :: bs => name == other && same a b && sameFields as bs
  | _, _ => false

end

mutual

theorem eq_of_same : (a b : Json) → same a b = true → a = b
  | .null, .null, _ => rfl
  | .bool _, .bool _, h => by simpa [same] using h
  | .int _, .int _, h => by simpa [same] using h
  | .float _, .float _, h => by simpa [same] using h
  | .string _, .string _, h => by simpa [same] using h
  | .array as, .array bs, h => by rw [eq_of_sameItems as bs (by simpa [same] using h)]
  | .object as, .object bs, h => by rw [eq_of_sameFields as bs (by simpa [same] using h)]
  | .null, .bool _, h | .null, .int _, h | .null, .float _, h | .null, .string _, h
  | .null, .array _, h | .null, .object _, h => by simp [same] at h
  | .bool _, .null, h | .bool _, .int _, h | .bool _, .float _, h | .bool _, .string _, h
  | .bool _, .array _, h | .bool _, .object _, h => by simp [same] at h
  | .int _, .null, h | .int _, .bool _, h | .int _, .float _, h | .int _, .string _, h
  | .int _, .array _, h | .int _, .object _, h => by simp [same] at h
  | .float _, .null, h | .float _, .bool _, h | .float _, .int _, h | .float _, .string _, h
  | .float _, .array _, h | .float _, .object _, h => by simp [same] at h
  | .string _, .null, h | .string _, .bool _, h | .string _, .int _, h | .string _, .float _, h
  | .string _, .array _, h | .string _, .object _, h => by simp [same] at h
  | .array _, .null, h | .array _, .bool _, h | .array _, .int _, h | .array _, .float _, h
  | .array _, .string _, h | .array _, .object _, h => by simp [same] at h
  | .object _, .null, h | .object _, .bool _, h | .object _, .int _, h | .object _, .float _, h
  | .object _, .string _, h | .object _, .array _, h => by simp [same] at h

theorem eq_of_sameItems : (as bs : List Json) → sameItems as bs = true → as = bs
  | [], [], _ => rfl
  | a :: as, b :: bs, h => by
    simp only [sameItems, Bool.and_eq_true] at h
    rw [eq_of_same a b h.1, eq_of_sameItems as bs h.2]
  | [], _ :: _, h | _ :: _, [], h => by simp [sameItems] at h

theorem eq_of_sameFields : (as bs : List (String × Json)) → sameFields as bs = true → as = bs
  | [], [], _ => rfl
  | (name, a) :: as, (other, b) :: bs, h => by
    simp only [sameFields, Bool.and_eq_true, beq_iff_eq] at h
    rw [h.1.1, eq_of_same a b h.1.2, eq_of_sameFields as bs h.2]
  | [], _ :: _, h | _ :: _, [], h => by simp [sameFields] at h

end

mutual

theorem same_refl : (a : Json) → same a a = true
  | .null => rfl
  | .bool _ | .int _ | .float _ | .string _ => by simp [same]
  | .array items => by rw [same]; exact sameItems_refl items
  | .object fields => by rw [same]; exact sameFields_refl fields

theorem sameItems_refl : (items : List Json) → sameItems items items = true
  | [] => rfl
  | a :: items => by rw [sameItems, same_refl a, sameItems_refl items]; rfl

theorem sameFields_refl : (fields : List (String × Json)) → sameFields fields fields = true
  | [] => rfl
  | (name, a) :: fields => by
    rw [sameFields, same_refl a, sameFields_refl fields, beq_self_eq_true]; rfl

end

instance : DecidableEq Json := fun a b =>
  if h : same a b = true then
    isTrue (eq_of_same a b h)
  else
    isFalse fun e => h (e ▸ same_refl a)

/-! ## Parts -/

/-- The text of a string value. -/
def string? : Json → Option String
  | .string value => some value
  | _ => none

/-- The number that a value is. -/
def number? : Json → Option Number
  | .int value => some (.whole value)
  | .float value => some (.decimal value)
  | _ => none

/-- The field of an object under a name. -/
def field? (value : Json) (name : String) : Option Json :=
  match value with
  | .object fields => Catalog.get? fields name
  | _ => none

/-- Whether a value counts as given: neither null, nor false, nor zero, nor empty. -/
def isGiven : Json → Bool
  | .null => false
  | .bool value => value
  | .int value => value != 0
  | .float value => value != 0
  | .string value => value != ""
  | .array items => !items.isEmpty
  | .object fields => !fields.isEmpty

/-- A number in the form that it has. -/
def ofNumber : Number → Json
  | .whole value => .int value
  | .decimal value => .float value

/-- A text or null. -/
def ofText? : Option String → Json
  | some text => .string text
  | none => .null

@[simp] theorem ofText?_inj {text text' : Option String} :
    ofText? text = ofText? text' ↔ text = text' := by
  cases text <;> cases text' <;> simp [ofText?]

/-! ## Order of fields -/

/-- Puts a field into fields that are sorted by name. -/
def insertSorted (field : String × Json) : List (String × Json) → List (String × Json)
  | [] => [field]
  | other :: rest => if field.1 < other.1 then field :: other :: rest
    else other :: insertSorted field rest

mutual

/-- The value with the fields of all objects in it sorted by name. -/
def sorted : Json → Json
  | .array items => .array (sortedItems items)
  | .object fields => .object (sortedFields fields)
  | value => value

/-- The values of a list with the fields of all objects sorted. -/
def sortedItems : List Json → List Json
  | [] => []
  | item :: items => sorted item :: sortedItems items

/-- Fields sorted by name, with the fields of all objects in them sorted. -/
def sortedFields : List (String × Json) → List (String × Json)
  | [] => []
  | (name, value) :: fields => insertSorted (name, sorted value) (sortedFields fields)

end

end Json

end SourceCanvas
