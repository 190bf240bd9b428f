import SourceCanvas.Error
import SourceCanvas.Json.Display
import SourceCanvas.Node.Attributes
import SourceCanvas.Text.Lines

/-!
# Attributes as payloads

Attributes are stored as the fields of an object. `Attributes.toFields` writes all fields of the
kind; `Attributes.ofFields` reads them back, gives the fields that are missing their blank value and
ignores fields that the kind does not have. Hand-edited payloads may use looser forms: a parameter
as `"name: type"`, headers as an object or as pairs, and null for an empty list.
-/

namespace SourceCanvas

/-! ## Reading fields -/

namespace Payload

/-- The text of a field, or the given one if the field is missing. -/
def text (fields : Json.Fields) (name blank : String) : Except Fault String :=
  match fields.get? name with
  | none => .ok blank
  | some (.string value) => .ok value
  | some _ => .error (.shape (.wrongType name))

/-- The text of a field that may be missing or null. -/
def text? (fields : Json.Fields) (name : String) : Except Fault (Option String) :=
  match fields.get? name with
  | none | some .null => .ok none
  | some (.string value) => .ok (some value)
  | some _ => .error (.shape (.wrongType name))

/-- The truth value of a field; a missing one is false. -/
def flag (fields : Json.Fields) (name : String) : Except Fault Bool :=
  match fields.get? name with
  | none => .ok false
  | some (.bool value) => .ok value
  | some _ => .error (.shape (.wrongType name))

/-- A text among others. -/
def item (name : String) : Json → Except Fault String
  | .string value => .ok value
  | _ => .error (.shape (.wrongType name))

/-- The texts of a field; a missing one holds none. -/
def texts (fields : Json.Fields) (name : String) : Except Fault (List String) :=
  match fields.get? name with
  | none => .ok []
  | some (.array items) => items.mapM (item name)
  | some _ => .error (.shape (.wrongType name))

/-- The elements that a value stands for. A text stands for its characters, an object for the names
of its fields, and a value that is not given for nothing. -/
def elements (name : String) (value : Json) : Except Fault (List Json) :=
  if !value.isGiven then
    .ok []
  else
    match value with
    | .array items => .ok items
    | .string value => .ok (value.toList.map fun c => .string (String.singleton c))
    | .object fields => .ok ((Catalog.names fields).map .string)
    | _ => .error (.shape (.wrongType name))

/-- The elements of a field; a missing one has none. -/
def fieldElements (fields : Json.Fields) (name : String) : Except Fault (List Json) :=
  elements name ((fields.get? name).getD .null)

/-- The text of a field that has to be there. -/
def required (fields : Json.Fields) (name : String) : Except Fault String :=
  match fields.get? name with
  | none => .error (.shape (.missingField name))
  | some value => item name value

end Payload

/-! ## Parts of attributes -/

/-- The fields of a parameter. -/
def Parameter.toJson (parameter : Parameter) : Json :=
  .object [("name", .string parameter.name), ("type", .ofText? parameter.type),
    ("optional", .bool parameter.optional), ("default", .ofText? parameter.defaultValue)]

/-- The parameter that a text of the form `name: type` stands for. -/
def Parameter.ofText (text : String) : Parameter :=
  let chars := text.toList
  let name := chars.takeWhile (· ≠ ':')
  let type := (chars.dropWhile (· ≠ ':')).drop 1
  { name := String.ofList (Text.trim name)
    type := Text.nonempty? (String.ofList (Text.trim type)) }

/-- Reads a parameter from its text or its fields. -/
def Parameter.ofJson : Json → Except Fault Parameter
  | .string text => .ok (Parameter.ofText text)
  | .object fields => do
    return {
      name := ← Payload.required fields "name"
      type := ← Payload.text? fields "type"
      optional := ← Payload.flag fields "optional"
      defaultValue := ← Payload.text? fields "default" }
  | _ => .error (.shape .notObject)

/-- The text of a parameter in the list of a function. -/
def Parameter.render (parameter : Parameter) : String :=
  let mark := if parameter.optional then "?" else ""
  let type := match parameter.type with
    | some type => if type = "" then "" else ": " ++ type
    | none => ""
  let value := match parameter.defaultValue with
    | some value => " = " ++ value
    | none => ""
  parameter.name ++ mark ++ type ++ value

/-- The fields of a member. -/
def Member.toJson (member : Member) : Json :=
  .object [("name", .string member.name), ("type", .string member.type),
    ("optional", .bool member.optional)]

/-- Reads a member from its fields. -/
def Member.ofJson : Json → Except Fault Member
  | .object fields => do
    return {
      name := ← Payload.required fields "name"
      type := ← Payload.text fields "type" "any"
      optional := ← Payload.flag fields "optional" }
  | _ => .error (.shape .notObject)

/-- The fields of a property. -/
def Property.toJson (property : Property) : Json :=
  .object [("key", .string property.key), ("value", .ofText? property.value)]

/-- Reads a property from its fields. -/
def Property.ofJson : Json → Except Fault Property
  | .object fields => do
    return { key := ← Payload.required fields "key", value := ← Payload.text? fields "value" }
  | _ => .error (.shape .notObject)

/-- Reads a header from its two parts, which need not be texts. A text of two characters and an
object of two fields have two parts as well. -/
def headerOfJson (entry : Json) : Except Fault (String × String) :=
  let pair : List Json → Except Fault (String × String)
    | [key, value] => .ok (key.plainText, value.plainText)
    | _ => .error (.shape .headerParts)
  match entry with
  | .array parts => pair parts
  | .string text => pair (text.toList.map fun c => .string (String.singleton c))
  | .object fields => pair ((Catalog.names fields).map .string)
  | _ => .error (.shape (.wrongType "headers"))

/-- Reads headers from an object or a list of pairs. -/
def headersOfJson (value : Json) : Except Fault (List (String × String)) :=
  match value with
  | .object fields => .ok (fields.map fun (key, value) => (key, value.plainText))
  | value => do (← Payload.elements "headers" value).mapM headerOfJson

/-- Reads a kind of literal. -/
def literalKindOfJson (value : Json) : Except Fault LiteralKind :=
  match value with
  | .string name =>
    match LiteralKind.ofName? name with
    | some kind => .ok kind
    | none => .error (.shape .unknownLiteralKind)
  | _ => .error (.shape .unknownLiteralKind)

/-! ## Attributes -/

namespace Attributes

/-- A list of texts. -/
def textsJson (texts : List String) : Json := .array (texts.map .string)

/-- The fields of attributes. -/
def toFields : Attributes → Json.Fields
  | .interfaceDecl a =>
    [("name", .string a.name), ("members", .array (a.members.map Member.toJson)),
      ("extends", textsJson a.bases)]
  | .functionDecl a =>
    [("name", .string a.name), ("parameters", .array (a.parameters.map Parameter.toJson)),
      ("return_type", .ofText? a.returnType), ("is_async", .bool a.isAsync),
      ("raw_body", .ofText? a.body)]
  | .variableDecl a =>
    [("name", .string a.name), ("declared_type", .ofText? a.declaredType),
      ("initializer", .ofText? a.initializer), ("keyword", .string a.keyword)]
  | .literal a =>
    [("value", .string a.value), ("literal_kind", .string a.kind.name), ("name", .ofText? a.name)]
  | .binaryOp a =>
    [("operator", .string a.operator), ("lhs", .ofText? a.left), ("rhs", .ofText? a.right),
      ("name", .ofText? a.name)]
  | .call a =>
    [("func_name", .ofText? a.function), ("args", textsJson a.args),
      ("expected_params", textsJson a.expected), ("name", .ofText? a.name)]
  | .propertyAccess a =>
    [("obj_expr", .ofText? a.object), ("property", .string a.property), ("name", .ofText? a.name)]
  | .conditional a =>
    [("test_expr", .ofText? a.test), ("when_true", .ofText? a.whenTrue),
      ("when_false", .ofText? a.whenFalse), ("name", .ofText? a.name)]
  | .object a =>
    [("properties", .array (a.properties.map Property.toJson)), ("name", .ofText? a.name)]
  | .api a =>
    [("name", .string a.name), ("method", .string a.method), ("endpoint", .string a.endpoint),
      ("headers", .array (a.headers.map fun (key, value) => .array [.string key, .string value])),
      ("body", .ofText? a.body)]
  | .console a =>
    [("value_expr", .ofText? a.value), ("label", .string a.label), ("name", .ofText? a.name)]
  | .importDecl a =>
    [("module", .string a.source), ("named", textsJson a.named),
      ("default", .ofText? a.defaultName), ("namespace", .ofText? a.wholeName),
      ("type_only", .bool a.typeOnly)]
  | .exportDecl a =>
    [("module", .ofText? a.source), ("named", textsJson a.named),
      ("default", .ofText? a.defaultValue), ("namespace", .ofText? a.wholeName),
      ("is_star", .bool a.isStar)]

open Payload in
/-- Reads the attributes of a kind from fields. -/
def ofFields (kind : NodeKind) (fields : Json.Fields) : Except Fault Attributes :=
  match kind with
  | .interfaceDecl => do
    let members ← (← fieldElements fields "members").mapM Member.ofJson
    return .interfaceDecl {
      name := ← text fields "name" "", members, bases := ← texts fields "extends" }
  | .functionDecl => do
    let parameters ← (← fieldElements fields "parameters").mapM Parameter.ofJson
    return .functionDecl {
      name := ← text fields "name" "", parameters, returnType := ← text? fields "return_type",
      isAsync := ← flag fields "is_async", body := ← text? fields "raw_body" }
  | .variableDecl => do
    return .variableDecl {
      name := ← text fields "name" "", declaredType := ← text? fields "declared_type",
      initializer := ← text? fields "initializer", keyword := ← text fields "keyword" "const" }
  | .literal => do
    let kind ← match fields.get? "literal_kind" with
      | some value => literalKindOfJson value
      | none => .ok .string
    return .literal { value := ← text fields "value" "", kind, name := ← text? fields "name" }
  | .binaryOp => do
    return .binaryOp {
      operator := ← text fields "operator" "+", left := ← text? fields "lhs",
      right := ← text? fields "rhs", name := ← text? fields "name" }
  | .call => do
    return .call {
      function := ← text? fields "func_name", args := ← texts fields "args",
      expected := ← texts fields "expected_params", name := ← text? fields "name" }
  | .propertyAccess => do
    return .propertyAccess {
      object := ← text? fields "obj_expr", property := ← text fields "property" "",
      name := ← text? fields "name" }
  | .conditional => do
    return .conditional {
      test := ← text? fields "test_expr", whenTrue := ← text? fields "when_true",
      whenFalse := ← text? fields "when_false", name := ← text? fields "name" }
  | .object => do
    let properties ← (← fieldElements fields "properties").mapM Property.ofJson
    return .object { properties, name := ← text? fields "name" }
  | .api => do
    let headers ← headersOfJson ((fields.get? "headers").getD .null)
    return .api {
      name := ← text fields "name" "fetchData", method := ← text fields "method" "GET",
      endpoint := ← text fields "endpoint" "", headers, body := ← text? fields "body" }
  | .console => do
    return .console {
      value := ← text? fields "value_expr", label := ← text fields "label" "log",
      name := ← text? fields "name" }
  | .importDecl => do
    return .importDecl {
      source := ← text fields "module" "", named := ← texts fields "named",
      defaultName := ← text? fields "default", wholeName := ← text? fields "namespace",
      typeOnly := ← flag fields "type_only" }
  | .exportDecl => do
    return .exportDecl {
      source := ← text? fields "module", named := ← texts fields "named",
      defaultValue := ← text? fields "default", wholeName := ← text? fields "namespace",
      isStar := ← flag fields "is_star" }

end Attributes

end SourceCanvas
