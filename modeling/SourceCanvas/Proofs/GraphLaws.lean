import SourceCanvas.Proofs.Ids
import SourceCanvas.Proofs.OutlineForest
import SourceCanvas.Proofs.SessionLaws

/-!
# Well-formed graphs

In a graph of a session ids of nodes and of edges are apart, and edges have both ends
(`Graph.Formed`). That takes ids in which the edges that show containments, which are named after
their ends, are apart from each other and from all others; a `Naming` says which ids and edges are
such. Each way to change a graph leaves it well-formed, under any naming.

A session that starts from nothing has the strict naming, in which an edge either is drawn by hand
or shows a containment and is named after its ends (`Graph.Sound`).
-/

namespace SourceCanvas

/-! ## Namings -/

/-- The data of the edges that show containments. -/
def Edge.containment : Json.Fields := [("relation", .string "contains")]

/-- An edge is drawn by hand. -/
def Edge.ByHand (edge : Edge) : Prop := edge.data = [] ∧ Plain edge.id

/-- An edge is drawn by hand, or shows a containment and is named after its ends. -/
def Edge.Proper (edge : Edge) : Prop :=
  edge.ByHand ∨ edge.data = Edge.containment ∧ edge.id = edge.source ++ "->" ++ edge.target

theorem Edge.isContainment_of_data {edge : Edge} (data : edge.data = Edge.containment) :
    edge.isContainment = true := by
  rw [Edge.isContainment, data]
  rfl

/-- Which ids of nodes and which edges a graph may have, so that the edges which show containments
are told apart by the nodes that lie below, and from all other edges. -/
structure Naming where
  node : String → Prop
  edge : Edge → Prop
  node_of_plain : ∀ id, Plain id → node id
  edge_of_byHand : ∀ edge', edge'.ByHand → edge edge'
  edge_containment : ∀ child parent, edge (Graph.containmentEdge child parent)
  edge_renamed : ∀ edge' renamed, edge edge' → edge'.isContainment = false →
    edge (Graph.renameEdge renamed edge')
  apart : ∀ edge' child parent, edge edge' → edge'.isContainment = false → node child →
    edge'.id ≠ child ++ "->" ++ parent
  inj : ∀ child child' parent parent', node child → node child' →
    child ++ "->" ++ parent = child' ++ "->" ++ parent' → child = child'

/-- An edge that may be there and shows no containment is drawn by hand. -/
theorem Edge.Proper.byHand {edge : Edge} (proper : edge.Proper)
    (drawn : edge.isContainment = false) : edge.ByHand := by
  rcases proper with byHand | ⟨data, -⟩
  · exact byHand
  · rw [isContainment_of_data data] at drawn
    cases drawn

/-- No id has the tip of an arrow, apart from those of edges that show containments. -/
def Naming.strict : Naming where
  node := Plain
  edge := Edge.Proper
  node_of_plain _ plain := plain
  edge_of_byHand _ byHand := .inl byHand
  edge_containment _ _ := .inr ⟨rfl, rfl⟩
  edge_renamed _ _ proper drawn := .inl (proper.byHand drawn)
  apart _ child parent proper drawn _ same :=
    not_plain_containmentId child parent (same ▸ (proper.byHand drawn).2)
  inj _ _ _ _ plain plain' same := (containmentId_inj plain plain' same).1

/-- What holds of a graph under a naming. -/
structure Graph.Formed (naming : Naming) (graph : Graph) : Prop where
  apart : graph.ids.Nodup
  named : ∀ id ∈ graph.ids, naming.node id
  edgesApart : (graph.edges.map (·.id)).Nodup
  live : ∀ edge ∈ graph.edges, edge.source ∈ graph.ids ∧ edge.target ∈ graph.ids
  fitting : ∀ edge ∈ graph.edges, naming.edge edge

/-- What holds of the graphs of a session that starts from nothing. -/
structure Graph.Sound (graph : Graph) : Prop where
  apart : graph.ids.Nodup
  plain : ∀ id ∈ graph.ids, Plain id
  edgesApart : (graph.edges.map (·.id)).Nodup
  live : ∀ edge ∈ graph.edges, edge.source ∈ graph.ids ∧ edge.target ∈ graph.ids
  proper : ∀ edge ∈ graph.edges, edge.Proper

namespace Graph

variable {naming : Naming} {graph graph' : Graph} {id : String}

theorem sound_iff : graph.Sound ↔ graph.Formed .strict :=
  ⟨fun sound => ⟨sound.apart, sound.plain, sound.edgesApart, sound.live, sound.proper⟩,
    fun formed => ⟨formed.apart, formed.named, formed.edgesApart, formed.live, formed.fitting⟩⟩

theorem hasNode_iff : graph.hasNode id = true ↔ id ∈ graph.ids := by
  simp [hasNode, ids]

theorem formed_empty : Formed naming {} where
  apart := List.nodup_nil
  named := by simp [ids]
  edgesApart := List.nodup_nil
  live := by simp
  fitting := by simp

theorem sound_empty : Sound {} := sound_iff.mpr formed_empty

theorem mem_ids_insertInto {node : CanvasNode} {nodes : List CanvasNode} :
    id ∈ (insertInto node nodes).map (·.id) ↔ id = node.id ∨ id ∈ nodes.map (·.id) := by
  rw [ids_insertInto]
  split
  · next known =>
    constructor
    · exact .inr
    · rintro (rfl | member)
      · exact known
      · exact member
  · rw [List.mem_append, List.mem_singleton, or_comm]

/-- Collecting nodes neither loses nor makes ids. -/
theorem mem_ids_collect {nodes : List CanvasNode} :
    id ∈ (collect nodes).map (·.id) ↔ id ∈ nodes.map (·.id) := by
  have step (found : List CanvasNode) :
      id ∈ (nodes.foldl (fun found node => insertInto node found) found).map (·.id) ↔
        id ∈ nodes.map (·.id) ∨ id ∈ found.map (·.id) := by
    induction nodes generalizing found with
    | nil => simp
    | cons node rest ih =>
      rw [List.foldl_cons, ih, mem_ids_insertInto, List.map_cons, List.mem_cons, or_left_comm,
        or_assoc]
  rw [collect, step []]
  simp

theorem insertInto_of_fresh {node : CanvasNode} {nodes : List CanvasNode}
    (fresh : node.id ∉ nodes.map (·.id)) : insertInto node nodes = nodes ++ [node] := by
  induction nodes with
  | nil => rfl
  | cons other rest ih =>
    rw [List.map_cons, List.mem_cons, not_or] at fresh
    rw [insertInto, if_neg (Ne.symm fresh.1), ih fresh.2, List.cons_append]

/-- Nodes with different ids are collected as they are. -/
theorem collect_of_nodup {nodes : List CanvasNode} (apart : (nodes.map (·.id)).Nodup) :
    collect nodes = nodes := by
  have step (found rest : List CanvasNode) (apart : ((found ++ rest).map (·.id)).Nodup) :
      rest.foldl (fun found node => insertInto node found) found = found ++ rest := by
    induction rest generalizing found with
    | nil => simp
    | cons node rest ih =>
      have fresh : node.id ∉ found.map (·.id) := by
        rw [List.map_append, List.nodup_append] at apart
        exact fun member => apart.2.2 _ member _ (List.mem_map_of_mem List.mem_cons_self) rfl
      rw [List.foldl_cons, insertInto_of_fresh fresh, ih, List.append_assoc, List.singleton_append]
      rwa [List.append_assoc, List.singleton_append]
  exact step [] nodes apart

theorem id_withoutBody (node : CanvasNode) : node.withoutBody.id = node.id := by
  rw [CanvasNode.withoutBody]
  split <;> rfl

/-! ## Edits -/

namespace Formed

/-- Changing nodes under their ids leaves a graph formed. -/
theorem of_ids (formed : graph.Formed naming) (ids : graph'.ids = graph.ids)
    (edges : graph'.edges = graph.edges) : graph'.Formed naming where
  apart := ids ▸ formed.apart
  named := ids ▸ formed.named
  edgesApart := edges ▸ formed.edgesApart
  live := by
    rw [ids, edges]
    exact formed.live
  fitting := edges ▸ formed.fitting

theorem adjust (formed : graph.Formed naming) (id : String) {change : CanvasNode → CanvasNode}
    (same : ∀ node, (change node).id = node.id) : (graph.adjust id change).Formed naming := by
  refine formed.of_ids ?_ rfl
  rw [Graph.adjust, ids, List.map_map]
  refine List.map_congr_left fun node _ => ?_
  show (if node.id == id then change node else node).id = node.id
  split
  · exact same node
  · rfl

theorem dropBodies (formed : graph.Formed naming) (id : Option String) :
    (graph.dropBodies id).Formed naming := by
  refine formed.of_ids ?_ rfl
  rw [Graph.dropBodies, ids, List.map_map]
  refine List.map_congr_left fun node _ => ?_
  show (if _ then node.withoutBody else node).id = node.id
  split
  · exact id_withoutBody node
  · rfl

theorem insertNode (formed : graph.Formed naming) {node : CanvasNode}
    (named : naming.node node.id) : (graph.insertNode node).Formed naming where
  apart := nodup_ids_insertInto formed.apart
  named := by
    intro id member
    rcases mem_ids_insertInto.mp member with rfl | member
    · exact named
    · exact formed.named id member
  edgesApart := formed.edgesApart
  live := fun edge member => ⟨mem_ids_insertInto.mpr (.inr (formed.live edge member).1),
    mem_ids_insertInto.mpr (.inr (formed.live edge member).2)⟩
  fitting := formed.fitting

theorem removeNode (formed : graph.Formed naming) (removed : graph.removeNode? id = some graph') :
    graph'.Formed naming := by
  rw [removeNode?] at removed
  split at removed
  · cases removed
    have stays {other : String} (member : other ∈ graph.ids) (different : other ≠ id) :
        other ∈ (graph.nodes.filter (·.id != id)).map (·.id) := by
      obtain ⟨node, inside, rfl⟩ := List.mem_map.mp member
      exact List.mem_map_of_mem (List.mem_filter.mpr ⟨inside, by simpa using different⟩)
    exact {
      apart := formed.apart.sublist (List.filter_sublist.map _)
      named := fun other member => formed.named other
        ((List.filter_sublist.map _).subset member)
      edgesApart := formed.edgesApart.sublist (List.filter_sublist.map _)
      live := by
        intro edge member
        obtain ⟨inside, apart⟩ := List.mem_filter.mp member
        simp only [Bool.and_eq_true, bne_iff_ne] at apart
        obtain ⟨source, target⟩ := formed.live edge inside
        exact ⟨stays source apart.1, stays target apart.2⟩
      fitting := fun edge member => formed.fitting edge (List.mem_filter.mp member).1 }
  · cases removed

theorem addEdge (formed : graph.Formed naming) {edge : Edge} (fits : naming.edge edge)
    (added : graph.addEdge? edge = some graph') : graph'.Formed naming := by
  rw [addEdge?] at added
  split at added
  · next ends =>
    cases added
    rw [Bool.and_eq_true, hasNode_iff, hasNode_iff] at ends
    have others {other : Edge} (member : other ∈ graph.edges.filter (·.id != edge.id)) :
        other ∈ graph.edges ∧ other.id ≠ edge.id := by
      obtain ⟨inside, different⟩ := List.mem_filter.mp member
      exact ⟨inside, by simpa using different⟩
    exact {
      apart := formed.apart
      named := formed.named
      edgesApart := by
        rw [List.map_append]
        refine List.nodup_append.mpr
          ⟨formed.edgesApart.sublist (List.filter_sublist.map _), by simp, ?_⟩
        rintro _ member _ last rfl
        obtain ⟨other, inside, same⟩ := List.mem_map.mp member
        rw [List.map_singleton, List.mem_singleton] at last
        exact (others inside).2 (same.trans last)
      live := by
        intro other member
        rcases List.mem_append.mp member with inside | last
        · exact formed.live other (others inside).1
        · rw [List.mem_singleton.mp last]
          exact ends
      fitting := by
        intro other member
        rcases List.mem_append.mp member with inside | last
        · exact formed.fitting other (others inside).1
        · rw [List.mem_singleton.mp last]
          exact fits }
  · cases added

theorem applyEffect (formed : graph.Formed naming) (source target : String) (effect : Effect) :
    (graph.applyEffect source target effect).Formed naming := by
  cases effect with
  | adopt => exact formed.adjust source fun _ => rfl
  | write attributes => exact formed.adjust target fun _ => rfl

theorem connect (formed : graph.Formed naming) {edge : Edge} (fits : naming.edge edge) :
    (graph.connect edge).1.Formed naming := by
  rw [Graph.connect]
  split
  · exact formed
  · next drawn added =>
    have drawnFormed := formed.addEdge fits added
    split
    · split
      · split
        · exact drawnFormed
        · exact drawnFormed
        · refine dropBodies ?_ _
          exact drawnFormed.applyEffect _ _ _
      · exact drawnFormed
    · exact drawnFormed

theorem disconnect (formed : graph.Formed naming) (id : String) :
    (graph.disconnect id).1.Formed naming where
  apart := formed.apart
  named := formed.named
  edgesApart := formed.edgesApart.sublist (List.eraseP_sublist.map _)
  live := fun edge member => formed.live edge (List.mem_of_mem_eraseP member)
  fitting := fun edge member => formed.fitting edge (List.mem_of_mem_eraseP member)

theorem update (formed : graph.Formed naming) (id : String) (changes : Json.Fields) :
    (graph.update id changes).1.Formed naming := by
  rw [Graph.update]
  split
  · exact formed
  · exact formed
  · split
    · exact formed
    · refine dropBodies ?_ _
      exact formed.adjust id fun _ => rfl

end Formed

/-- A change leaves every graph well-formed. -/
def Forms (naming : Naming) (change : Session.GraphChange) : Prop :=
  ∀ graph, Formed naming graph → Formed naming (change graph).1

theorem forms_insert {node : CanvasNode} (named : naming.node node.id) :
    Forms naming (.insert node) :=
  fun _ formed => formed.insertNode named

theorem forms_remove (id : String) : Forms naming (.remove id) := by
  intro graph formed
  rw [Session.GraphChange.remove]
  split
  · next removed => exact formed.removeNode removed
  · exact formed

theorem forms_move (id : String) (position : Point) : Forms naming (.move id position) := by
  intro graph formed
  rw [Session.GraphChange.move]
  split
  · exact formed.adjust _ fun _ => rfl
  · exact formed

theorem forms_connect {edge : Edge} (byHand : edge.ByHand) : Forms naming (.connect edge) := by
  intro graph formed
  rw [Session.GraphChange.connect]
  split
  · exact formed.connect (naming.edge_of_byHand _ byHand)
  · exact formed

theorem forms_disconnect (id : String) : Forms naming (.disconnect id) :=
  fun _ formed => formed.disconnect id

theorem forms_update (id : String) (changes : Json.Fields) : Forms naming (.update id changes) :=
  fun _ formed => formed.update id changes

/-- A change that a command asks for leaves graphs well-formed. -/
theorem forms_change {session : Session} {command : Command} {change : Session.GraphChange}
    (asks : command.change? session = some change) : Forms naming change := by
  cases command with
  | addNode kind position parent =>
    cases asks
    exact forms_insert (naming.node_of_plain _ session.supply.plain_drawNode)
  | removeNode id =>
    cases asks
    exact forms_remove _
  | moveNode id position =>
    cases asks
    exact forms_move _ _
  | connect source target sourceHandle targetHandle =>
    cases asks
    exact forms_connect ⟨rfl, session.supply.plain_drawEdge⟩
  | disconnect id =>
    cases asks
    exact forms_disconnect _
  | update id changes =>
    rw [Command.change?] at asks
    split at asks
    · cases asks
    · cases asks
      exact forms_update _ _
  | changeText | loadFlow | diagnose | restart | callStore => cases asks

theorem Sound.change {session : Session} {command : Command} {change : Session.GraphChange}
    (sound : session.graph.Sound) (asks : command.change? session = some change) :
    (change session.graph).1.Sound :=
  sound_iff.mpr (forms_change asks _ (sound_iff.mp sound))

/-! ## Containment edges -/

theorem mem_containmentEdges {edge : Edge} :
    edge ∈ graph.containmentEdges ↔
      ∃ node ∈ graph.nodes, ∃ parent, graph.parentOf? node = some parent ∧
        edge = containmentEdge node parent := by
  simp only [containmentEdges, List.mem_filterMap, Option.map_eq_some_iff]
  constructor
  · rintro ⟨node, member, parent, found, rfl⟩
    exact ⟨node, member, parent, found, rfl⟩
  · rintro ⟨node, member, parent, found, rfl⟩
    exact ⟨node, member, parent, found, rfl⟩

theorem mem_of_parentOf? {node parent : CanvasNode} (found : graph.parentOf? node = some parent) :
    parent ∈ graph.nodes := by
  obtain ⟨_, -, found⟩ := Option.bind_eq_some_iff.mp found
  exact List.mem_of_find?_eq_some found

theorem nodup_ids_containmentEdges (apart : graph.ids.Nodup)
    (named : ∀ id ∈ graph.ids, naming.node id) : (graph.containmentEdges.map (·.id)).Nodup := by
  rw [containmentEdges, List.Nodup, List.pairwise_map, List.pairwise_filterMap]
  rw [ids, List.Nodup, List.pairwise_map] at apart
  refine apart.imp_of_mem ?_
  intro a b member member' different edge made edge' made' same
  obtain ⟨parent, -, rfl⟩ := Option.map_eq_some_iff.mp made
  obtain ⟨parent', -, rfl⟩ := Option.map_eq_some_iff.mp made'
  exact different (naming.inj _ _ _ _ (named _ (List.mem_map_of_mem member))
    (named _ (List.mem_map_of_mem member')) same)

/-- Nodes with their containment edges and with other edges between them. -/
theorem formed_of_parts {nodes : List CanvasNode} {others : List Edge}
    (apart : ids { nodes } |>.Nodup) (named : ∀ id ∈ ids { nodes }, naming.node id)
    (edgesApart : (others.map (·.id)).Nodup)
    (fitting : ∀ edge ∈ others, naming.edge edge ∧ edge.isContainment = false)
    (live : ∀ edge ∈ others, edge.source ∈ ids { nodes } ∧ edge.target ∈ ids { nodes }) :
    Formed naming { nodes, edges := others ++ containmentEdges { nodes } } where
  apart := apart
  named := named
  edgesApart := by
    rw [List.map_append]
    refine List.nodup_append.mpr ⟨edgesApart, nodup_ids_containmentEdges apart named, ?_⟩
    rintro _ member _ member' rfl
    obtain ⟨edge, inside, same⟩ := List.mem_map.mp member
    obtain ⟨edge', inside', same'⟩ := List.mem_map.mp member'
    obtain ⟨node, node_mem, parent, -, rfl⟩ := mem_containmentEdges.mp inside'
    obtain ⟨fits, drawn⟩ := fitting edge inside
    exact naming.apart edge node.id parent.id fits drawn
      (named _ (List.mem_map_of_mem node_mem)) (same.trans same'.symm)
  live := by
    intro edge member
    rcases List.mem_append.mp member with inside | inside
    · exact live edge inside
    · obtain ⟨node, node_mem, parent, found, rfl⟩ := mem_containmentEdges.mp inside
      exact ⟨List.mem_map_of_mem node_mem, List.mem_map_of_mem (mem_of_parentOf? found)⟩
  fitting := by
    intro edge member
    rcases List.mem_append.mp member with inside | inside
    · exact (fitting edge inside).1
    · obtain ⟨node, -, parent, -, rfl⟩ := mem_containmentEdges.mp inside
      exact naming.edge_containment node parent

theorem mem_userEdges {edge : Edge} :
    edge ∈ graph.userEdges ↔ edge ∈ graph.edges ∧ edge.isContainment = false := by
  rw [userEdges, List.mem_filter, Bool.not_eq_true']

theorem ids_merge (existing fresh : Graph) (positions : Catalog Point) :
    (existing.merge fresh positions).ids = fresh.ids := by
  show (fresh.nodes.map _).map (fun node : CanvasNode => node.id) = fresh.ids
  rw [List.map_map]
  rfl

/-- Merging a parsed text leaves a graph well-formed. -/
theorem Formed.merge (formed : graph.Formed naming) {nodes : List Node}
    (plain : ∀ node ∈ nodes, Plain node.id) (positions : Catalog Point) :
    (graph.merge (.ofNodes nodes []) positions).Formed naming := by
  have idsMerged := ids_merge graph (.ofNodes nodes []) positions
  refine formed_of_parts ?_ ?_ ?_ ?_ ?_
  · show (graph.merge (.ofNodes nodes []) positions).ids.Nodup
    rw [idsMerged]
    exact nodup_ids_collect _
  · show ∀ id ∈ (graph.merge (.ofNodes nodes []) positions).ids, naming.node id
    rw [idsMerged]
    intro id member
    obtain ⟨placed, inside, rfl⟩ := List.mem_map.mp (mem_ids_collect.mp member)
    obtain ⟨node, listed, rfl⟩ := List.mem_map.mp inside
    exact naming.node_of_plain _ (plain node listed)
  · exact formed.edgesApart.sublist ((List.filter_sublist.trans List.filter_sublist).map _)
  · intro edge member
    obtain ⟨inside, drawn⟩ := mem_userEdges.mp (List.mem_filter.mp member).1
    exact ⟨formed.fitting edge inside, drawn⟩
  · intro edge member
    have ends := (List.mem_filter.mp member).2
    rw [Bool.and_eq_true, hasNode_iff, hasNode_iff] at ends
    exact ends

theorem Sound.merge (sound : graph.Sound) {nodes : List Node}
    (plain : ∀ node ∈ nodes, Plain node.id) (positions : Catalog Point) :
    (graph.merge (.ofNodes nodes []) positions).Sound :=
  sound_iff.mpr ((sound_iff.mp sound).merge plain positions)

theorem nodeId_of_parse {reclassify : Bool} {text : String} {nodes : List Node}
    (parsed : parse reclassify text = .ok nodes) :
    ∀ node ∈ nodes, ∃ start stop kind, node.id = nodeId start stop kind := by
  rw [parse] at parsed
  cases read : outline reclassify text with
  | error error =>
    rw [read] at parsed
    cases parsed
  | ok constructs =>
    rw [read] at parsed
    cases parsed
    intro node member
    obtain ⟨span, -, -, -, -, same⟩ := (preorderForest_of_outline read).located node member
    exact ⟨_, _, _, same⟩

theorem plain_of_parse {reclassify : Bool} {text : String} {nodes : List Node}
    (parsed : parse reclassify text = .ok nodes) : ∀ node ∈ nodes, Plain node.id := by
  intro node member
  obtain ⟨start, stop, kind, same⟩ := nodeId_of_parse parsed node member
  rw [same]
  exact plain_nodeId _ _ _

end Graph

end SourceCanvas
