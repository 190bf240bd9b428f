import SourceCanvas.Proofs.RekeyLaws
import SourceCanvas.Proofs.GraphIntegrity
import SourceCanvas.Proofs.SessionSteps

/-!
# Graphs whose text is written anew

A change of the graph that the text shows ends with the text written anew and the nodes under the
ids that the next reading of that text gives them. This module says what that makes of the single
node: `Session.renewedNode` has its id and the id of its parent renamed, and what it captures
stays. The graph afterwards collects these nodes (`Session.nodes_renewed`), so where two of them
end up under one id only one is left; `Session.Becomes` ties a node to what is left of it.
-/

namespace SourceCanvas

open Text (given?)

theorem Text.given?_eq_some {text : Option String} {given : String} :
    given? text = some given ↔ text = some given ∧ given ≠ "" := by
  cases text with
  | none => simp [given?]
  | some text =>
    simp only [given?, Text.nonempty?, Option.bind_some, Option.ite_none_left_eq_some,
      Option.some.injEq]
    constructor
    · rintro ⟨filled, rfl⟩
      exact ⟨rfl, filled⟩
    · rintro ⟨rfl, filled⟩
      exact ⟨filled, rfl⟩

/-! ## Captured bodies -/

/-- Whether a node is a function. -/
def CanvasNode.isFunction (node : CanvasNode) : Bool :=
  match node.content with
  | .typed (.functionDecl _) => true
  | _ => false

/-- The text captured as the body of a function. -/
def CanvasNode.body? (node : CanvasNode) : Option String :=
  match node.content with
  | .typed (.functionDecl function) => function.body
  | _ => none

namespace Graph

variable {graph : Graph} {node parent : CanvasNode}

/-! ## Looking up -/

theorem node?_of_mem (apart : graph.ids.Nodup) (member : node ∈ graph.nodes) :
    graph.node? node.id = some node := by
  obtain ⟨found, first⟩ : ∃ found, graph.node? node.id = some found :=
    Option.isSome_iff_exists.mp (List.find?_isSome.mpr ⟨node, member, by simp⟩)
  have same : found.id = node.id := by simpa using List.find?_some first
  rw [first, List.inj_on_of_nodup_map apart (List.mem_of_find?_eq_some first) member same]

/-- The parent of a node is the node that it names. -/
theorem parentOf?_iff (apart : graph.ids.Nodup) (member : parent ∈ graph.nodes) :
    graph.parentOf? node = some parent ↔ given? node.parent = some parent.id := by
  rw [parentOf?, Option.bind_eq_some_iff]
  constructor
  · rintro ⟨id, given, found⟩
    have same : parent.id = id := by simpa using List.find?_some found
    rw [given, same]
  · exact fun given => ⟨_, given, node?_of_mem apart member⟩

theorem nodes_of_removeNode? {rest : Graph} {id : String}
    (removed : graph.removeNode? id = some rest) :
    rest.nodes = graph.nodes.filter (·.id != id) := by
  rw [removeNode?] at removed
  split at removed
  · cases removed
    rfl
  · cases removed

theorem mem_of_mem_insertInto {nodes : List CanvasNode} (member : node ∈ insertInto parent nodes) :
    node = parent ∨ node ∈ nodes := by
  induction nodes with
  | nil => exact .inl (List.mem_singleton.mp member)
  | cons first rest ih =>
    rw [insertInto] at member
    split at member
    · rcases List.mem_cons.mp member with same | inside
      · exact .inl same
      · exact .inr (List.mem_cons_of_mem _ inside)
    · rcases List.mem_cons.mp member with same | inside
      · exact .inr (List.mem_cons.mpr (.inl same))
      · exact (ih inside).imp_right (List.mem_cons_of_mem _)

/-- Collecting nodes makes no new ones. -/
theorem mem_of_mem_collect {nodes : List CanvasNode} (member : node ∈ collect nodes) :
    node ∈ nodes := by
  have step (rest found : List CanvasNode)
      (member : node ∈ rest.foldl (fun found node => insertInto node found) found) :
      node ∈ rest ∨ node ∈ found := by
    induction rest generalizing found with
    | nil => exact .inr member
    | cons first rest ih =>
      rcases ih _ member with inside | inside
      · exact .inl (List.mem_cons_of_mem _ inside)
      · rcases mem_of_mem_insertInto inside with same | inside
        · exact .inl (List.mem_cons.mpr (.inl same))
        · exact .inr inside
  exact (step nodes [] member).resolve_right List.not_mem_nil

/-! ## Renamed nodes -/

theorem body?_pinName (node : CanvasNode) (construct : Node) :
    (pinName node construct).body? = node.body? := by
  rw [pinName]
  split
  · next attributes name typed _ =>
    split
    · rfl
    · rw [CanvasNode.body?, CanvasNode.body?, typed]
      cases attributes <;> rfl
  · rfl

/-- Renaming a node leaves what it captures. -/
theorem body?_renameNode (renamed : Catalog String) (pairs : List (CanvasNode × Node))
    (node : CanvasNode) : (renameNode renamed pairs node).body? = node.body? := by
  rw [renameNode]
  split
  · next construct _ _ => exact body?_pinName node construct
  · rfl

end Graph

namespace Session

open Graph (newId)

variable {session : Session} {reclassify : Bool} {program : Program} {graph : Graph}
  {command : Command} {change : GraphChange}

/-! ## Settled nodes -/

/-- A node of a graph once its text is written, which gives it the span of its block and the id that
the next reading finds. -/
def settledNode (reclassify : Bool) (program : Program) (graph : Graph) (node : CanvasNode) :
    CanvasNode :=
  let spanned := withSpans graph program.ranges
  let node : CanvasNode := { node with span := program.ranges.get? node.id }
  match parse reclassify program.text with
  | .error _ => node
  | .ok parsed =>
    let pairs := spanned.matching parsed program.ranges
    Graph.renameNode (spanned.newIds pairs) pairs node

/-- Settling a graph settles its nodes. -/
theorem nodes_settle (apart : graph.ids.Nodup) (reclassify : Bool) (program : Program) :
    (settle reclassify program graph).1.nodes =
      Graph.collect (graph.nodes.map (settledNode reclassify program graph)) := by
  have spanned : (withSpans graph program.ranges).ids.Nodup :=
    Graph.ids_withSpans graph program.ranges ▸ apart
  have listed := Graph.collect_of_nodup spanned
  cases read : parse reclassify program.text with
  | error error =>
    have same : settledNode reclassify program graph =
        fun node => { node with span := program.ranges.get? node.id } := by
      funext node
      rw [settledNode, read]
    rw [settle, read, same]
    exact listed.symm
  | ok parsed =>
    let pairs := (withSpans graph program.ranges).matching parsed program.ranges
    have same : settledNode reclassify program graph =
        Graph.renameNode ((withSpans graph program.ranges).newIds pairs) pairs ∘
          fun node => { node with span := program.ranges.get? node.id } := by
      funext node
      rw [settledNode, read]
      rfl
    rw [settle, read, same, ← List.map_map]
    dsimp only
    rw [Graph.rekey]
    split
    · next unmoved =>
      have same : Graph.renameNode ((withSpans graph program.ranges).newIds pairs) pairs = id := by
        rw [List.isEmpty_iff.mp unmoved]
        exact funext (Graph.renameNode_nil pairs)
      rw [same, List.map_id]
      exact listed.symm
    · rfl

/-- The new ids of a settled graph, given by its matching. -/
theorem renamed_settle {parsed : List Node} (read : parse reclassify program.text = .ok parsed) :
    (settle reclassify program graph).2 = (withSpans graph program.ranges).newIds
      ((withSpans graph program.ranges).matching parsed program.ranges) := by
  rw [settle, read]
  dsimp only
  rw [Graph.rekey]
  split
  · next unmoved => exact (List.isEmpty_iff.mp unmoved).symm
  · rfl

theorem id_settledNode (reclassify : Bool) (program : Program) (graph : Graph)
    (node : CanvasNode) : (settledNode reclassify program graph node).id =
      newId (settle reclassify program graph).2 node.id := by
  cases read : parse reclassify program.text with
  | error error =>
    rw [settle, settledNode, read]
    rfl
  | ok parsed =>
    rw [renamed_settle read, settledNode, read]
    exact Graph.id_renameNode (Graph.renames_newIds _ _) _

theorem parent_settledNode (reclassify : Bool) (program : Program) (graph : Graph)
    (node : CanvasNode) : (settledNode reclassify program graph node).parent =
      node.parent.map (newId (settle reclassify program graph).2) := by
  cases read : parse reclassify program.text with
  | error error =>
    rw [settle, settledNode, read]
    dsimp only
    rw [Graph.newId_nil, Option.map_id]
    rfl
  | ok parsed =>
    rw [renamed_settle read, settledNode, read]
    rfl

theorem body?_settledNode (reclassify : Bool) (program : Program) (graph : Graph)
    (node : CanvasNode) : (settledNode reclassify program graph node).body? = node.body? := by
  rw [settledNode]
  split
  · rfl
  · exact Graph.body?_renameNode _ _ _

/-! ## Graphs written anew -/

/-- A graph once the session has written its text, and the new ids by the old ones. A graph that
cannot be written stays as it is. -/
def renewed (session : Session) (graph : Graph) : Graph × Catalog String :=
  match session.writing? graph with
  | none => (graph, [])
  | some program => settle session.setup.settings.reclassify program graph

/-- The text of the session once it has written that of a graph. -/
def renewedText (session : Session) (graph : Graph) : String :=
  match session.writing? graph with
  | none => session.text
  | some program => program.text

/-- A node of a graph once the session has written the text of the graph. -/
def renewedNode (session : Session) (graph : Graph) (node : CanvasNode) : CanvasNode :=
  match session.writing? graph with
  | none => node
  | some program => settledNode session.setup.settings.reclassify program graph node

theorem nodes_renewed (session : Session) (apart : graph.ids.Nodup) :
    (session.renewed graph).1.nodes =
      Graph.collect (graph.nodes.map (session.renewedNode graph)) := by
  rw [renewed]
  unfold renewedNode
  split
  · rw [List.map_id']
    exact (Graph.collect_of_nodup apart).symm
  · exact nodes_settle apart _ _

theorem id_renewedNode (session : Session) (graph : Graph) (node : CanvasNode) :
    (session.renewedNode graph node).id = newId (session.renewed graph).2 node.id := by
  rw [renewedNode, renewed]
  split
  · rfl
  · exact id_settledNode _ _ _ _

theorem parent_renewedNode (session : Session) (graph : Graph) (node : CanvasNode) :
    (session.renewedNode graph node).parent =
      node.parent.map (newId (session.renewed graph).2) := by
  rw [renewedNode, renewed]
  split
  · rw [Graph.newId_nil, Option.map_id]
    rfl
  · exact parent_settledNode _ _ _ _

theorem body?_renewedNode (session : Session) (graph : Graph) (node : CanvasNode) :
    (session.renewedNode graph node).body? = node.body? := by
  rw [renewedNode]
  split
  · rfl
  · exact body?_settledNode _ _ _ _

theorem nodup_ids_renewed (session : Session) (apart : graph.ids.Nodup) :
    (session.renewed graph).1.ids.Nodup := by
  rw [Graph.ids, nodes_renewed session apart]
  exact Graph.nodup_ids_collect _

/-- An id that is not empty stays so. -/
theorem newId_renewed_ne_empty (session : Session) (graph : Graph) {id : String}
    (filled : id ≠ "") : newId (session.renewed graph).2 id ≠ "" := by
  rcases Graph.newId_eq_or (session.renewed graph).2 id with same | found
  · rw [same]
    exact filled
  · rw [renewed] at found ⊢
    split at found
    · cases found
    · exact settle_ne_empty found

/-! ## After a change -/

/-- A node of a graph, and what it is once the text of the graph is written. Nothing is left of a node
whose id another one comes to have. -/
structure Becomes (session : Session) (graph after : Graph) (node node' : CanvasNode) : Prop where
  member : node ∈ graph.nodes
  same : node' = session.renewedNode graph node
  left : node' ∈ after.nodes

/-- A change that the text shows ends with the text and the graph written anew. -/
theorem next_of_shown (depth : Nat) (idle : session.phase = .idle)
    (listeners : session.setup.OperatesOnly) (asks : command.change? session = some change)
    (shown : change session.graph = (graph, .ok .visible)) :
    (session.next depth command).text = session.renewedText graph ∧
      (session.next depth command).graph = (session.renewed graph).1 := by
  have echo := command.echo_draw session
  have quiet := quiet_listener depth
  have engaged : Engaged (begun (command.draw session) change) :=
    ⟨by simp [begun], echo.setup ▸ listeners⟩
  have setup : (begun (command.draw session) change).setup = session.setup := echo.setup
  have made : (begun (command.draw session) change).graph = graph := by
    show (change (command.draw session).graph).1 = _
    rw [echo.graph, shown]
  have writing : (begun (command.draw session) change).writing?
      (begun (command.draw session) change).graph = session.writing? graph := by
    rw [made]
    exact writing?_congr setup _
  rw [next, perform_eq, perform_change _ asks,
    changeGraph_idle _ _ (echo.phase.trans idle), echo.graph, shown, renewedText, renewed]
  let wrote := (writeText (listener depth) (begun (command.draw session) change)).2
  let ended := (listener depth .graph (saveGraph (listener depth) wrote).2).2
  show ended.text = _ ∧ ended.graph = _
  cases written : session.writing? graph with
  | none =>
    rw [written] at writing
    have unwritten : wrote = begun (command.draw session) change := by
      show (writeText _ _).2 = _
      rw [writeText_eq, writing]
    have same : SamePicture wrote ended := picture_finish quiet (unwritten ▸ engaged)
    rw [same.text, same.graph, unwritten]
    exact ⟨echo.text, made⟩
  | some program =>
    rw [written] at writing
    have writes : Writes program (begun (command.draw session) change) wrote :=
      writes_writeText quiet engaged writing
    have engaged' : Engaged wrote := ⟨writes.phase ▸ engaged.busy, writes.setup ▸ engaged.listeners⟩
    have same : SamePicture wrote ended := picture_finish quiet engaged'
    rw [same.text, same.graph, writes.text, writes.graph, made, setup]
    exact ⟨rfl, rfl⟩

/-- Every node afterwards is what is left of one. -/
theorem exists_becomes (depth : Nat) (idle : session.phase = .idle)
    (listeners : session.setup.OperatesOnly) (asks : command.change? session = some change)
    (shown : change session.graph = (graph, .ok .visible)) (apart : graph.ids.Nodup)
    {node' : CanvasNode} (member : node' ∈ (session.next depth command).graph.nodes) :
    ∃ node, session.Becomes graph (session.next depth command).graph node node' := by
  have inside := member
  rw [(next_of_shown depth idle listeners asks shown).2, nodes_renewed session apart] at inside
  obtain ⟨node, listed, same⟩ := List.mem_map.mp (Graph.mem_of_mem_collect inside)
  exact ⟨node, listed, same.symm, member⟩

end Session

end SourceCanvas
