import SourceCanvas.Graph.Script

/-!
# Transcripts of scripts

A transcript holds what came of each command of a script, with the graph after it. A call whose
attributes are made of a payload goes on with the list of arguments of that payload. What is written
into it by edges is written into the payload as well, until the attributes are changed by name or
the function of the call is. So a payload is shown with the arguments that the call has in the end
(`GraphTranscript.settle`), also where it stands before the call was made of it.
-/

namespace SourceCanvas

/-- A command with its ids, what came of it, and the graph after it. -/
structure GraphEntry where
  command : GraphCommand
  outcome : Except Fault GraphOutcome
  graph : Graph

namespace GraphTranscript

/-- The entries for the commands of a script. A command that could not be read leaves the graph as
it is. -/
def ofScript (reclassify : Bool) :
    Graph → Supply → List (Except Fault GraphCommand) → List GraphEntry
  | _, _, [] => []
  | graph, supply, .error fault :: rest =>
    ⟨.validate, .error fault, graph⟩ :: ofScript reclassify graph supply rest
  | graph, supply, .ok command :: rest =>
    let command := command.resolve graph
    let (outcome, graph, supply) := command.perform reclassify graph supply
    ⟨command, outcome, graph⟩ :: ofScript reclassify graph supply rest

/-! ## Shared arguments -/

/-- The arguments in the attributes of a call. -/
def callArguments? (content : Content) : Option (List String) :=
  match content with
  | .typed (.call call) => some call.args
  | _ => none

/-- The arguments that a payload holds for a call. -/
def payloadArguments? (content : Content) : Option (List String) :=
  match content with
  | .raw kind payload =>
    if NodeKind.ofName? kind = some .call then
      match payload.get? "args" with
      | some (.array items) => items.mapM Json.string?
      | _ => none
    else
      none
  | .typed _ => none

/-- The id that a node has after a command. -/
def idAfter (entry : GraphEntry) (id : String) : String :=
  match entry.outcome with
  | .ok (.rekeyed _ renamed) => Graph.newId renamed id
  | _ => id

/-- Whether a command has changed what it was about. -/
def hasChanged (entry : GraphEntry) : Bool :=
  match entry.outcome with
  | .ok (.flag changed) => changed
  | _ => false

/-- Whether a command ends the sharing of the arguments of a call: it replaces the node, its
attributes, or the list. -/
def endsSharing (entry : GraphEntry) (id : String) : Bool :=
  match entry.command with
  | .addNode node => node.id == id
  | .update other _ => other == id && hasChanged entry
  | .connect edge => edge.target == id && edge.targetHandle == some "func" && hasChanged entry
  | .merge _ _ => true
  | _ => false

/-- The arguments that a call has when it stops to share them, or else in the end. -/
def sharedArguments (id : String) (args : List String) : List GraphEntry → List String
  | [] => args
  | entry :: rest =>
    let id := idAfter entry id
    match (entry.graph.node? id).bind fun node => callArguments? node.content with
    | some now => if endsSharing entry id then args else sharedArguments id now rest
    | none => args

/-- The arguments with which a payload is shown, given what comes after it. -/
def shownArguments (id : String) (args : List String) : List GraphEntry → List String
  | [] => args
  | entry :: rest =>
    match entry.graph.node? id with
    | none => args
    | some node =>
      match node.content, entry.command with
      | .raw _ _, .addNode other => if other.id = id then args else shownArguments id args rest
      | .raw _ _, _ => shownArguments id args rest
      | .typed (.call call), .update other changes =>
        if other = id ∧ !changes.has "args" then sharedArguments id call.args rest else args
      | _, _ => args

/-- A node as it is shown. -/
def showContent (later : List GraphEntry) (id : String) (content : Content) : Content :=
  match content, payloadArguments? content with
  | .raw kind payload, some args =>
    let shown := (shownArguments id args later).map Json.string
    .raw kind (Catalog.insert "args" (.array shown) payload)
  | content, _ => content

/-- A graph as it is shown. -/
def showGraph (later : List GraphEntry) (graph : Graph) : Graph :=
  { graph with
    nodes := graph.nodes.map fun node =>
      { node with content := showContent later node.id node.content } }

/-- What came of a command, as it is shown. -/
def showOutcome (later : List GraphEntry) : GraphOutcome → GraphOutcome
  | .nodes nodes =>
    .nodes (nodes.map fun node => { node with content := showContent later node.id node.content })
  | outcome => outcome

/-- A transcript as it is shown. -/
def settle : List GraphEntry → List GraphEntry
  | [] => []
  | entry :: later =>
    { entry with
      outcome := entry.outcome.map (showOutcome later)
      graph := showGraph later entry.graph } :: settle later

end GraphTranscript

end SourceCanvas
