import SourceCanvas.Graph.Connect
import SourceCanvas.Graph.Handle
import SourceCanvas.Graph.Reference
import SourceCanvas.Graph.Rekey
import SourceCanvas.Layout.Layered
import SourceCanvas.Outline.Parser
import SourceCanvas.Supply

/-!
# Scripts on a graph

A script is a list of commands to a graph, each of which may read or change it. Commands name nodes
and edges by references, which are resolved when their turn comes (`GraphCommand.resolve`);
`GraphCommand.perform` then does what the command says.
-/

namespace SourceCanvas

/-! ## Commands -/

/-- An edge to be drawn. One without an id gets a fresh one. -/
structure EdgeDraft where
  id : Option String := none
  source : String
  sourceHandle : Option String := some outputHandle
  target : String
  targetHandle : Option String := none
  data : Json.Fields := []
  deriving DecidableEq

/-- What can be said to a graph. -/
inductive GraphCommand where
  /-- writes a node; one with an empty id gets a fresh one -/
  | addNode (node : CanvasNode)
  | removeNode (id : String)
  | findNode (id : String)
  | moveNode (id : String) (position : Point)
  | addEdge (edge : EdgeDraft)
  /-- appends an edge whatever its ends -/
  | appendEdge (edge : EdgeDraft)
  | findEdge (id : String)
  | removeEdge (id : String)
  | children (id : String)
  /-- compares with the graph of a text -/
  | compareTopology (text : String)
  | validate
  | connect (edge : EdgeDraft)
  | disconnect (id : String)
  | update (id : String) (changes : Json.Fields)
  | expression (id : String)
  | handles (id : String) (name : Option String)
  | toNodes
  | render (indent : Nat)
  /-- follows the ids of a text, or else of the text of the graph -/
  | rekey (indent : Nat) (text : Option String)
  /-- merges the graph of a text -/
  | merge (text : String) (positions : Catalog Point)
  | layout (settings : Json.Fields)
  deriving DecidableEq

/-- What comes of a command. -/
inductive GraphOutcome where
  | done
  | flag (value : Bool)
  | id (id : Option String)
  | ids (ids : List String)
  | edge (edge : Option Edge)
  | problems (problems : List Problem)
  | text (text : Option String)
  | handles (inputs outputs : List Handle) (found : Bool)
  | nodes (nodes : List Node)
  | program (program : Program)
  | rekeyed (text : String) (renamed : Catalog String)
  | places (places : Catalog (Number × Number))

/-- An edge with the ids that it refers to. -/
def EdgeDraft.resolve (graph : Graph) (edge : EdgeDraft) : EdgeDraft :=
  { edge with source := graph.resolve edge.source, target := graph.resolve edge.target }

/-- The edge of a draft, with a fresh id where it has none. -/
def EdgeDraft.draw (edge : EdgeDraft) (supply : Supply) : Edge × Supply :=
  let (id, supply) := match edge.id with
    | some id => (id, supply)
    | none => supply.drawEdge
  ({ id, source := edge.source, sourceHandle := edge.sourceHandle, target := edge.target,
     targetHandle := edge.targetHandle, data := edge.data }, supply)

/-- The command with the ids that it refers to. -/
def GraphCommand.resolve (graph : Graph) : GraphCommand → GraphCommand
  | addNode node => addNode { node with parent := node.parent.map graph.resolve }
  | removeNode id => removeNode (graph.resolve id)
  | findNode id => findNode (graph.resolve id)
  | moveNode id position => moveNode (graph.resolve id) position
  | addEdge edge => addEdge (edge.resolve graph)
  | appendEdge edge => appendEdge (edge.resolve graph)
  | findEdge id => findEdge (graph.resolve id)
  | removeEdge id => removeEdge (graph.resolve id)
  | children id => children (graph.resolve id)
  | connect edge => connect (edge.resolve graph)
  | disconnect id => disconnect (graph.resolve id)
  | update id changes => update (graph.resolve id) changes
  | expression id => expression (graph.resolve id)
  | handles id name => handles (graph.resolve id) name
  | command => command

/-! ## Doing what a command says -/

namespace Graph

/-- The nodes of a text. -/
def parseNodes (reclassify : Bool) (text : String) : Except Fault (List Node) :=
  match parse reclassify text with
  | .ok nodes => .ok nodes
  | .error error => .error (.lexical error)

/-- A node that has to be there. -/
def require (graph : Graph) (id : String) : Except Fault CanvasNode :=
  match graph.node? id with
  | some node => .ok node
  | none => .error (.shape (.missingKey id))

/-- The text of a graph, and the graph after following the ids of that text or of another one. -/
def rekeyText (graph : Graph) (reclassify : Bool) (indent : Nat) (text : Option String) :
    Except Fault (GraphOutcome × Graph) := do
  let program ← SourceCanvas.render indent graph.toNodes
  let nodes ← parseNodes reclassify (text.getD program.text)
  let (graph, renamed) := graph.rekey nodes program.ranges
  return (.rekeyed program.text renamed, graph)

end Graph

/-- What a command finds that leaves the graph as it is. -/
def GraphCommand.inspect (reclassify : Bool) (graph : Graph) (command : GraphCommand) :
    Except Fault GraphOutcome :=
  match command with
  | findNode id => .ok (.id ((graph.node? id).map (·.id)))
  | findEdge id => .ok (.edge (graph.edge? id))
  | children id => .ok (.ids ((graph.children id).map (·.id)))
  | compareTopology text => do
    let nodes ← Graph.parseNodes reclassify text
    return .flag (graph.sameTopology (Graph.ofNodes nodes []))
  | validate => .ok (.problems graph.problems)
  | expression id => do
    let node ← graph.require id
    return .text (← node.expressionText)
  | handles id name => do
    let node ← graph.require id
    return .handles node.inputs node.outputs (name.any fun name => (node.input? name).isSome)
  | toNodes => .ok (.nodes graph.toNodes)
  | render indent => .program <$> SourceCanvas.render indent graph.toNodes
  | layout settings => do
    let settings ← Settings.ofFields settings
    return .places (settings.measures.layout graph)
  | _ => .ok .done

/-- Does what a command says, with ids from a supply where fresh ones are needed. -/
def GraphCommand.perform (reclassify : Bool) (graph : Graph) (supply : Supply)
    (command : GraphCommand) : Except Fault GraphOutcome × Graph × Supply :=
  match command with
  | addNode node =>
    let (id, supply) := if node.id = "" then supply.drawNode else (node.id, supply)
    (.ok (.id (some id)), graph.insertNode { node with id }, supply)
  | removeNode id =>
    match graph.removeNode? id with
    | some graph => (.ok (.flag true), graph, supply)
    | none => (.ok (.flag false), graph, supply)
  | moveNode id position =>
    match graph.require id with
    | .ok _ => (.ok .done, graph.adjust id fun node => { node with position }, supply)
    | .error fault => (.error fault, graph, supply)
  | addEdge edge =>
    let (edge, supply) := edge.draw supply
    match graph.addEdge? edge with
    | some graph => (.ok (.flag true), graph, supply)
    | none => (.ok (.flag false), graph, supply)
  | appendEdge edge =>
    let (edge, supply) := edge.draw supply
    (.ok .done, { graph with edges := graph.edges ++ [edge] }, supply)
  | removeEdge id => (.ok (.edge (graph.edge? id)), graph.removeEdge id, supply)
  | connect edge =>
    let (edge, supply) := edge.draw supply
    let (graph, changed) := graph.connect edge
    (changed.map .flag, graph, supply)
  | disconnect id =>
    let (graph, found) := graph.disconnect id
    (.ok (.flag found), graph, supply)
  | update id changes =>
    let (graph, found) := graph.update id changes
    (found.map .flag, graph, supply)
  | rekey indent text =>
    match graph.rekeyText reclassify indent text with
    | .ok (outcome, graph) => (.ok outcome, graph, supply)
    | .error fault => (.error fault, graph, supply)
  | merge text positions =>
    match Graph.parseNodes reclassify text with
    | .ok nodes => (.ok .done, graph.merge (Graph.ofNodes nodes []) positions, supply)
    | .error fault => (.error fault, graph, supply)
  | command => (command.inspect reclassify graph, graph, supply)

end SourceCanvas
