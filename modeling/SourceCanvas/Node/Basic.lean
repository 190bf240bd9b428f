import SourceCanvas.Node.Payload
import SourceCanvas.Digest

/-!
# Nodes

A node stands for one construct of a source text or one card on the canvas. Its content is either
the attributes of a known kind or a payload that is kept as it is, which all nodes of unknown kind
have. The ids of nodes that come from a text follow from where the construct lies and what it is
(`nodeId`).
-/

namespace SourceCanvas

/-! ## Content -/

/-- What a node holds. -/
inductive Content where
  | typed (attributes : Attributes)
  /-- the name of a kind, known or not, with a payload that is kept as it is -/
  | raw (kind : String) (payload : Json.Fields)
  deriving DecidableEq

namespace Content

/-- The name of the kind. -/
def kindName : Content → String
  | .typed attributes => attributes.kind.name
  | .raw kind _ => kind

/-- The kind, if it is known. -/
def kind? : Content → Option NodeKind
  | .typed attributes => some attributes.kind
  | .raw kind _ => NodeKind.ofName? kind

/-- Whether the node is of a known kind and has its attributes. -/
def isTyped : Content → Bool
  | .typed _ => true
  | .raw _ _ => false

/-- The payload to be stored. -/
def toFields : Content → Json.Fields
  | .typed attributes => attributes.toFields
  | .raw _ payload => payload

/-- Reads the payload of a node of a kind: attributes if the kind is known. -/
def ofFields (kind : String) (fields : Json.Fields) : Except Fault Content :=
  match NodeKind.ofName? kind with
  | some kind => .typed <$> Attributes.ofFields kind fields
  | none => .ok (.raw kind fields)

/-- A pair of a name and a value, as an element of a list of fields. -/
def entryOfJson : Json → Except Fault (String × Json)
  | .array [.string name, value] => .ok (name, value)
  | .string text =>
    match text.toList with
    | [name, value] => .ok (String.singleton name, .string (String.singleton value))
    | _ => .error (.shape .headerParts)
  | .array [_, _] => .error (.shape (.wrongType "data"))
  | .array _ | .object _ => .error (.shape .headerParts)
  | _ => .error (.shape (.wrongType "data"))

/-- The fields that a payload stands for: those of an object, those listed as pairs, or none where
the payload is not given. -/
def payloadFields (value : Json) : Except Fault Json.Fields :=
  match value with
  | .object fields => .ok fields
  | value => do
    let entries ← (← Payload.elements "data" value).mapM entryOfJson
    return Catalog.ofList entries

/-- Reads the payload of a node of a kind from a value. -/
def ofJson (kind : String) (value : Json) : Except Fault Content := do
  ofFields kind (← payloadFields value)

/-- The name that the content declares, if it is not empty. -/
def declaredName? : Content → Option String
  | .typed attributes => attributes.name?.bind Text.nonempty?
  | .raw _ _ => none

end Content

/-! ## Nodes -/

/-- A node, with its place below another node and in a source text. -/
structure Node where
  id : String
  content : Content
  parent : Option String := none
  span : Option Span := none
  deriving DecidableEq

namespace Node

/-- The name of the kind of a node. -/
def kindName (node : Node) : String := node.content.kindName

/-- The kind of a node, if it is known. -/
def kind? (node : Node) : Option NodeKind := node.content.kind?

/-- Whether a node lies below no other. -/
def isTopLevel (node : Node) : Bool := node.parent.isNone

/-- Two offsets as a value. -/
def spanJson (span : Option Span) : Json :=
  match span with
  | some span => .array [.int span.start, .int span.stop]
  | none => .null

/-- Reads the two offsets of a source range. A range that is not given is none. -/
def spanOfJson (value : Json) : Except Fault (Option Span) :=
  if !value.isGiven then
    .ok none
  else
    match value with
    | .array [.int start, .int stop] => .ok (some ⟨start.toNat, stop.toNat⟩)
    | _ => .error (.shape .rangeEnds)

/-- The fields of a node. -/
def toJson (node : Node) : Json :=
  .object [("id", .string node.id), ("kind", .string node.kindName),
    ("parent_id", .ofText? node.parent), ("source_range", spanJson node.span),
    ("attributes", .object node.content.toFields)]

/-- Reads a node from its fields. The id and the kind have to be there. -/
def ofFields (fields : Json.Fields) : Except Fault Node := do
  let get (name : String) : Except Fault String :=
    match fields.get? name with
    | some value => Payload.item name value
    | none => .error (.shape (.missingKey name))
  let id ← get "id"
  let kind ← get "kind"
  let content ← Content.ofJson kind ((fields.get? "attributes").getD .null)
  let parent ← Payload.text? fields "parent_id"
  let span ← spanOfJson ((fields.get? "source_range").getD .null)
  return { id, content, parent, span }

end Node

/-- The id of a construct: the first half of a digest of its ends and its kind. -/
def nodeId (start stop : Int) (kind : String) : String :=
  String.ofList ((Digest.ofString (toString start ++ ":" ++ toString stop ++ ":" ++ kind)).take 16)

/-! ## Lists of nodes -/

/-- The nodes below each parent, by the parent's first child. -/
def childrenIndex (nodes : List Node) : Catalog (List Node) :=
  nodes.foldl
    (fun index node =>
      match node.parent with
      | some parent => index.gather parent node
      | none => index)
    []

/-- The nodes below a parent, in order. -/
def childrenOf (nodes : List Node) (parent : String) : List Node :=
  nodes.filter fun node => node.parent == some parent

/-- One problem for each node whose parent is not in the list. -/
def orphans (nodes : List Node) : List Problem :=
  nodes.filterMap fun node =>
    match node.parent with
    | some parent =>
      if nodes.any (·.id == parent) then none else some (.orphanNode node.id parent)
    | none => none

end SourceCanvas
