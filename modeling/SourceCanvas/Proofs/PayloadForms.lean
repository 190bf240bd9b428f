import Mathlib.Data.List.Forall2
import Mathlib.Data.List.TakeWhile
import SourceCanvas.Node.Basic

/-!
# Forms of payloads

What may stand in the fields of a payload, and what is written back for it. Every kind of node has a
table of fields (`NodeKind.slots`), each with a form and with the value that it has where it is
missing. `FieldForm.Normal` says which values a form takes and what their normal form is: a text or
null stands for itself, while members, parameters, properties and headers may be given in looser
forms. No value has two normal forms (`FieldForm.Normal.unique`), so that a payload gives at most
one list of fields (`Slot.TakeAll.unique`).
-/

namespace SourceCanvas

open Relator (RightUnique)

/-! ## Fields -/

/-- What a field of a payload may hold. -/
inductive FieldForm where
  | text
  | optionalText
  | flag
  | literalKind
  | texts
  | members
  | parameters
  | properties
  | headers
  deriving DecidableEq, Repr

/-- A field of a payload, with the value that it has where it is missing. A field without such a
value has to be there. -/
structure Slot where
  name : String
  form : FieldForm
  blank : Option Json

namespace Slot

/-- A text that has to be there. -/
def required (name : String) : Slot := ⟨name, .text, none⟩

/-- A text. -/
def text (name : String) (blank : String := "") : Slot := ⟨name, .text, some (.string blank)⟩

/-- A text or null. -/
def text? (name : String) : Slot := ⟨name, .optionalText, some .null⟩

/-- A truth value, which is false where it is missing. -/
def flag (name : String) : Slot := ⟨name, .flag, some (.bool false)⟩

/-- A list of a form, which is empty where it is missing. -/
def list (name : String) (form : FieldForm) : Slot := ⟨name, form, some (.array [])⟩

end Slot

/-- The fields of a member. -/
def Member.slots : List Slot := [.required "name", .text "type" "any", .flag "optional"]

/-- The fields of a parameter. -/
def Parameter.slots : List Slot :=
  [.required "name", .text? "type", .flag "optional", .text? "default"]

/-- The fields of a property. -/
def Property.slots : List Slot := [.required "key", .text? "value"]

/-- The fields of the attributes of a kind. -/
def NodeKind.slots : NodeKind → List Slot
  | .interfaceDecl => [.text "name", .list "members" .members, .list "extends" .texts]
  | .functionDecl =>
    [.text "name", .list "parameters" .parameters, .text? "return_type", .flag "is_async",
      .text? "raw_body"]
  | .variableDecl =>
    [.text "name", .text? "declared_type", .text? "initializer", .text "keyword" "const"]
  | .literal =>
    [.text "value", ⟨"literal_kind", .literalKind, some (.string "string")⟩, .text? "name"]
  | .binaryOp => [.text "operator" "+", .text? "lhs", .text? "rhs", .text? "name"]
  | .call =>
    [.text? "func_name", .list "args" .texts, .list "expected_params" .texts, .text? "name"]
  | .propertyAccess => [.text? "obj_expr", .text "property", .text? "name"]
  | .conditional => [.text? "test_expr", .text? "when_true", .text? "when_false", .text? "name"]
  | .object => [.list "properties" .properties, .text? "name"]
  | .api =>
    [.text "name" "fetchData", .text "method" "GET", .text "endpoint", .list "headers" .headers,
      .text? "body"]
  | .console => [.text? "value_expr", .text "label" "log", .text? "name"]
  | .importDecl =>
    [.text "module", .list "named" .texts, .text? "default", .text? "namespace",
      .flag "type_only"]
  | .exportDecl =>
    [.text? "module", .list "named" .texts, .text? "default", .text? "namespace",
      .flag "is_star"]

/-! ## Normal forms -/

/-- Values without parts, each of which is its own normal form. -/
inductive FieldForm.Plain : FieldForm → Json → Json → Prop
  | text (value : String) : Plain .text (.string value) (.string value)
  | noText : Plain .optionalText .null .null
  | someText (value : String) : Plain .optionalText (.string value) (.string value)
  | flag (value : Bool) : Plain .flag (.bool value) (.bool value)

/-- What is written for a field: the normal form of what a payload gives under its name. -/
def Slot.Takes (normal : FieldForm → Json → Json → Prop) (slot : Slot) (fields : Json.Fields)
    (written : Json) : Prop :=
  match fields.get? slot.name with
  | some given => normal slot.form given written
  | none => slot.blank = some written

/-- What is written for the fields of a table, in their order. Other fields of the payload are
dropped. -/
def Slot.TakeAll (normal : FieldForm → Json → Json → Prop) (slots : List Slot)
    (fields written : Json.Fields) : Prop :=
  List.Forall₂ (fun slot entry => entry.1 = slot.name ∧ slot.Takes normal fields entry.2)
    slots written

/-- A part of attributes, given by its fields. -/
inductive Slot.Part (slots : List Slot) : Json → Json → Prop
  | fields {fields written : Json.Fields} (each : TakeAll FieldForm.Plain slots fields written) :
    Part slots (.object fields) (.object written)

/-- A parameter, given by its fields or as a text with the type behind the first colon. -/
inductive Parameter.Given : Json → Json → Prop
  | fields {given written : Json} (part : Slot.Part Parameter.slots given written) :
    Given given written
  | typed {name type : List Char} (first : ':' ∉ name) :
    Given (.string (String.ofList (name ++ ':' :: type))) (Parameter.toJson {
      name := String.ofList (Text.trim name)
      type := Text.nonempty? (String.ofList (Text.trim type)) })
  | untyped {name : List Char} (none : ':' ∉ name) :
    Given (.string (String.ofList name)) (Parameter.toJson {
      name := String.ofList (Text.trim name) })

/-- The elements of a value: those of an array, the characters of a text, or the names of the fields
of an object. -/
inductive Json.Spread : Json → List Json → Prop
  | array (items : List Json) : Spread (.array items) items
  | string (value : String) :
    Spread (.string value) (value.toList.map fun c => .string (String.singleton c))
  | object (fields : Json.Fields) :
    Spread (.object fields) ((Catalog.names fields).map .string)

/-- What a value lists: its elements, or nothing where it is not given. -/
def Json.Lists (given : Json) (items : List Json) : Prop :=
  given.Spread items ∨ given.isGiven = false ∧ items = []

/-- The header that is written for a key and a value. -/
def headerJson (header : String × String) : Json :=
  .array [.string header.1, .string header.2]

/-- A header has two parts, each of which stands for a text. -/
inductive Json.HeaderGiven : Json → Json → Prop
  | parts {given key value : Json} (spread : given.Spread [key, value]) :
    HeaderGiven given (headerJson (key.plainText, value.plainText))

/-- The values that a form takes, with their normal forms. -/
inductive FieldForm.Normal : FieldForm → Json → Json → Prop
  | plain {form : FieldForm} {given written : Json} (same : Plain form given written) :
    Normal form given written
  | literalKind (kind : LiteralKind) :
    Normal .literalKind (.string kind.name) (.string kind.name)
  | texts (values : List String) :
    Normal .texts (.array (values.map .string)) (.array (values.map .string))
  | members {given : Json} {items written : List Json} (lists : given.Lists items)
    (each : List.Forall₂ (Slot.Part Member.slots) items written) :
    Normal .members given (.array written)
  | parameters {given : Json} {items written : List Json} (lists : given.Lists items)
    (each : List.Forall₂ Parameter.Given items written) :
    Normal .parameters given (.array written)
  | properties {given : Json} {items written : List Json} (lists : given.Lists items)
    (each : List.Forall₂ (Slot.Part Property.slots) items written) :
    Normal .properties given (.array written)
  | headers {given : Json} {items written : List Json} (listed : ∀ fields, given ≠ .object fields)
    (lists : given.Lists items) (each : List.Forall₂ Json.HeaderGiven items written) :
    Normal .headers given (.array written)
  /-- headers may also be given as the fields of an object -/
  | headerFields (fields : Json.Fields) :
    Normal .headers (.object fields)
      (.array (fields.map fun field => headerJson (field.1, field.2.plainText)))

/-- Attributes are those that a payload gives. -/
def Attributes.Reads (fields : Json.Fields) (attributes : Attributes) : Prop :=
  Slot.TakeAll FieldForm.Normal attributes.kind.slots fields attributes.toFields

/-! ## Normal forms are unique -/

theorem FieldForm.Plain.unique (form : FieldForm) : RightUnique (Plain form) := by
  rintro given written other first second
  cases first <;> cases second <;> rfl

section Slots

variable {normal : FieldForm → Json → Json → Prop} (functional : ∀ form, RightUnique (normal form))

include functional

theorem Slot.Takes.unique (slot : Slot) : RightUnique (slot.Takes normal) := by
  intro fields written other first second
  rw [Takes] at first second
  cases found : fields.get? slot.name with
  | none =>
    rw [found] at first second
    exact Option.some.inj (first.symm.trans second)
  | some given =>
    rw [found] at first second
    exact functional _ first second

/-- A payload gives at most one list of fields. -/
theorem Slot.TakeAll.unique (slots : List Slot) : RightUnique (TakeAll normal slots) := by
  intro fields written other first second
  refine List.right_unique_forall₂' (fun slot entry entry' given given' => ?_) first second
  exact Prod.ext (given.1.trans given'.1.symm) (Slot.Takes.unique functional slot given.2 given'.2)

end Slots

theorem Slot.Part.unique (slots : List Slot) : RightUnique (Part slots) := by
  rintro given written other ⟨first⟩ ⟨second⟩
  rw [TakeAll.unique FieldForm.Plain.unique slots first second]

theorem Parameter.ofText_typed {name type : List Char} (first : ':' ∉ name) :
    Parameter.ofText (String.ofList (name ++ ':' :: type)) = {
      name := String.ofList (Text.trim name)
      type := Text.nonempty? (String.ofList (Text.trim type)) } := by
  have before : ∀ c ∈ name, decide (c ≠ ':') = true := fun c member =>
    decide_eq_true fun same => first (same ▸ member)
  simp only [ofText, String.toList_ofList, List.takeWhile_append_of_pos before,
    List.dropWhile_append_of_pos before]
  simp

theorem Parameter.ofText_untyped {name : List Char} (none : ':' ∉ name) :
    Parameter.ofText (String.ofList name) = { name := String.ofList (Text.trim name) } := by
  have before : ∀ c ∈ name, decide (c ≠ ':') = true := fun c member =>
    decide_eq_true fun same => none (same ▸ member)
  simp only [ofText, String.toList_ofList, List.takeWhile_eq_self_iff.mpr before,
    List.dropWhile_eq_nil_iff.mpr before]
  rfl

theorem Parameter.Given.eq_ofText {text : String} {written : Json}
    (gives : Parameter.Given (.string text) written) :
    written = (Parameter.ofText text).toJson := by
  cases gives with
  | fields part => cases part
  | typed first => rw [ofText_typed first]
  | untyped none => rw [ofText_untyped none]

theorem Parameter.Given.unique : RightUnique Parameter.Given := by
  intro given written other first second
  cases given with
  | string text => rw [first.eq_ofText, second.eq_ofText]
  | object fields =>
    cases first with
    | fields part =>
      cases second with
      | fields part' => exact Slot.Part.unique slots part part'
  | _ =>
    cases first with
    | fields part => cases part

theorem Json.Spread.unique : RightUnique Json.Spread := by
  intro given items others first second
  cases first <;> cases second <;> rfl

/-- A value that is not given has no elements. -/
theorem Json.Spread.eq_nil {given : Json} {items : List Json} (spread : given.Spread items)
    (absent : given.isGiven = false) : items = [] := by
  cases spread with
  | array items =>
    cases items with
    | nil => rfl
    | cons => cases absent
  | string value =>
    rw [bne_eq_false_iff_eq.mp absent]
    rfl
  | object fields =>
    cases fields with
    | nil => rfl
    | cons => cases absent

theorem Json.Lists.unique : RightUnique Json.Lists := by
  rintro given items others (spread | ⟨absent, rfl⟩) (spread' | ⟨absent', rfl⟩)
  · exact Spread.unique spread spread'
  · exact spread.eq_nil absent'
  · exact (spread'.eq_nil absent).symm
  · rfl

theorem Json.HeaderGiven.unique : RightUnique Json.HeaderGiven := by
  rintro given written other ⟨spread⟩ ⟨spread'⟩
  cases Spread.unique spread spread'
  rfl

/-- No value has two normal forms. -/
theorem FieldForm.Normal.unique (form : FieldForm) : RightUnique (Normal form) := by
  intro given written other first second
  have parts {gives : Json → Json → Prop} (unique : RightUnique gives)
      {items items' written other : List Json}
      (lists : given.Lists items) (each : List.Forall₂ gives items written)
      (lists' : given.Lists items') (each' : List.Forall₂ gives items' other) :
      Json.array written = .array other := by
    cases Json.Lists.unique lists lists'
    rw [List.right_unique_forall₂' unique each each']
  cases first with
  | plain same =>
    cases second with
    | plain same' => exact Plain.unique form same same'
    | _ => cases same
  | literalKind kind =>
    generalize same : Json.string kind.name = given at second ⊢
    cases second with
    | plain same' => cases same'
    | literalKind => rfl
  | texts values =>
    generalize same : Json.array (values.map .string) = given at second ⊢
    cases second with
    | plain same' => cases same'
    | texts => rfl
  | members lists each =>
    cases second with
    | plain same' => cases same'
    | members lists' each' => exact parts (Slot.Part.unique _) lists each lists' each'
  | parameters lists each =>
    cases second with
    | plain same' => cases same'
    | parameters lists' each' => exact parts Parameter.Given.unique lists each lists' each'
  | properties lists each =>
    cases second with
    | plain same' => cases same'
    | properties lists' each' => exact parts (Slot.Part.unique _) lists each lists' each'
  | headers listed lists each =>
    cases second with
    | plain same' => cases same'
    | headers _ lists' each' => exact parts Json.HeaderGiven.unique lists each lists' each'
    | headerFields fields => exact (listed fields rfl).elim
  | headerFields fields =>
    cases second with
    | plain same' => cases same'
    | headers listed => exact (listed fields rfl).elim
    | headerFields => rfl

end SourceCanvas
