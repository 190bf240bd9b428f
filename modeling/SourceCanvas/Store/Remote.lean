import SourceCanvas.Json.Display
import SourceCanvas.Store.Record

/-!
# Remote stores

A remote store answers calls over a wire. `Remote.request` says what is sent for a call, and
`Remote.read` what a reply to it means. The documents of a reply may hold any values, but the fields
that a record needs have to be there.
-/

namespace SourceCanvas

/-- A remote store: where it is and how many seconds it has for a reply. -/
structure Remote where
  baseUrl : String
  timeout : Number

/-- What is sent for a call. -/
structure RemoteRequest where
  url : String
  body : Json
  timeout : Number

/-- What comes back. -/
inductive RemoteOutcome where
  /-- a reply that could be decoded -/
  | body (value : Json)
  /-- anything that went wrong before that, with the reason given -/
  | failed (reason : String)

/-- A node as a reply holds it. -/
structure NodeDocument where
  id : Json
  flow : Json
  kind : Json
  data : Json
  x : Json
  y : Json

/-- An edge as a reply holds it. -/
structure EdgeDocument where
  id : Json
  flow : Json
  source : Json
  target : Json
  sourceHandle : Json
  targetHandle : Json
  data : Json

/-- What a remote store answers. -/
inductive RemoteReply where
  | done
  | value (value : Json)
  | nodes (nodes : List NodeDocument)
  | edges (edges : List EdgeDocument)

namespace Remote

/-! ## Requests -/

/-- The name of the remote function for a call. -/
def function : StoreCall → String
  | .createFlow _ _ => "flows:create"
  | .upsertNode _ _ => "nodes:upsert"
  | .removeNode _ => "nodes:remove"
  | .listNodes _ => "nodes:listByFlow"
  | .upsertEdge _ _ => "edges:upsert"
  | .removeEdge _ => "edges:remove"
  | .listEdges _ => "edges:listByFlow"
  | .updatePreview _ _ => "flows:updatePreview"
  | .preview _ => "flows:preview"
  | .close => "close"

/-- The place to which a call is sent: calls that only ask have one of their own. -/
def endpoint : StoreCall → String
  | .listNodes _ | .listEdges _ | .preview _ => "query"
  | _ => "mutation"

/-- A number that has to be there. -/
def number (name : String) : Option Float → Except Fault Json
  | some value => .ok (.float value)
  | none => .error (.shape (.wrongType name))

/-- The arguments of a call. -/
def arguments : StoreCall → Except Fault Json.Fields
  | .createFlow title owner => .ok [("ownerId", .ofText? owner), ("title", .ofText? title)]
  | .upsertNode id entry => do
    return [("id", .ofText? id), ("flowId", .ofText? entry.flow), ("type", .ofText? entry.kind),
      ("data", entry.data), ("x", ← number "x" entry.x), ("y", ← number "y" entry.y)]
  | .removeNode id | .removeEdge id => .ok [("id", .ofText? id)]
  | .listNodes flow | .listEdges flow | .preview flow => .ok [("flowId", .ofText? flow)]
  | .upsertEdge id entry =>
    .ok [("id", .ofText? id), ("flowId", .ofText? entry.flow), ("source", .ofText? entry.source),
      ("sourceHandle", .ofText? entry.sourceHandle), ("target", .ofText? entry.target),
      ("targetHandle", .ofText? entry.targetHandle), ("data", entry.data)]
  | .updatePreview flow code => .ok [("flowId", .ofText? flow), ("code", .ofText? code)]
  | .close => .ok []

/-- What is sent for a call. Arguments that are null are left out. -/
def request (remote : Remote) (call : StoreCall) : Except Fault RemoteRequest := do
  let given := (← arguments call).filter fun argument => argument.2 ≠ .null
  return {
    url := remote.baseUrl ++ "/api/" ++ endpoint call
    body := .object [("path", .string (function call)), ("args", .object given),
      ("format", .string "json")]
    timeout := remote.timeout }

/-! ## Replies -/

/-- The value of a reply, if it reports success. -/
def valueOf (call : StoreCall) (outcome : RemoteOutcome) : Except Fault Json :=
  let fail (reason : String) : Except Fault Json :=
    .error (.store (.callFailed (function call) reason))
  match outcome with
  | .failed reason => fail reason
  | .body (.object fields) =>
    if Catalog.get? fields "status" = some (.string "success") then
      .ok ((Catalog.get? fields "value").getD .null)
    else
      fail ((Catalog.get? fields "errorMessage").getD (.string "unknown error")).plainText
  | .body value => .error (.store (.unexpectedReply (function call) value.display))

/-- The documents of a value, which has to be a list if it is given at all. -/
def documents (value : Json) : Except Fault (List Json) :=
  if !value.isGiven then
    .ok []
  else
    match value with
    | .array documents => .ok documents
    | _ => .error (.shape (.wrongType "value"))

/-- The fields of a document. -/
def fieldsOf : Json → Except Fault Json.Fields
  | .object fields => .ok fields
  | _ => .error (.shape (.wrongType "document"))

/-- A field that a document has to have. -/
def required (fields : Json.Fields) (name : String) : Except Fault Json :=
  match fields.get? name with
  | some value => .ok value
  | none => .error (.shape (.missingKey name))

/-- A field that a document may have. -/
def optional (fields : Json.Fields) (name : String) (blank : Json) : Json :=
  (fields.get? name).getD blank

/-- The data of a document; data that is not given is empty. -/
def dataOf (fields : Json.Fields) : Json :=
  let data := optional fields "data" .null
  if data.isGiven then data else .object []

/-- The node that a document holds. -/
def readNode (document : Json) : Except Fault NodeDocument := do
  let fields ← fieldsOf document
  return {
    id := ← required fields "_id"
    flow := ← required fields "flowId"
    kind := ← required fields "type"
    data := dataOf fields
    x := optional fields "x" (.float 0)
    y := optional fields "y" (.float 0) }

/-- The edge that a document holds. -/
def readEdge (document : Json) : Except Fault EdgeDocument := do
  let fields ← fieldsOf document
  return {
    id := ← required fields "_id"
    flow := ← required fields "flowId"
    source := ← required fields "source"
    target := ← required fields "target"
    sourceHandle := optional fields "sourceHandle" .null
    targetHandle := optional fields "targetHandle" .null
    data := dataOf fields }

/-- What a reply to a call means. -/
def read (call : StoreCall) (outcome : RemoteOutcome) : Except Fault RemoteReply := do
  let value ← valueOf call outcome
  match call with
  | .createFlow _ _ | .upsertNode _ _ | .upsertEdge _ _ | .preview _ => return .value value
  | .listNodes _ => return .nodes (← (← documents value).mapM readNode)
  | .listEdges _ => return .edges (← (← documents value).mapM readEdge)
  | .removeNode _ | .removeEdge _ | .updatePreview _ _ | .close => return .done

end Remote

end SourceCanvas
