import Mathlib.Data.List.Basic
import SourceCanvas.Proofs.GraphLaws
import SourceCanvas.Proofs.SessionSteps

/-!
# Texts reconciled with graphs

A change of the text ends in a graph that has the nodes of the new text, whatever was on the canvas
before (`Graph.Reconciled`). Of the graph before only the positions of nodes and the edges drawn by
hand remain, as far as their nodes are there in the new text. A text that cannot be cut into tokens
leaves graph and store alone (`Session.Refused`).

That the layout is not asked is said by putting any other layout in its place: nothing changes, so
not even a layout that fails or that changes the session is noticed.
-/

namespace SourceCanvas

/-! ## Graphs of parsed nodes -/

/-- Nodes with the same id are of one kind and lie at one place. -/
def IdsTellApart (nodes : List Node) : Prop :=
  ∀ first ∈ nodes, ∀ second ∈ nodes, first.id = second.id →
    (first.span, first.kindName) = (second.span, second.kindName)

instance (nodes : List Node) : Decidable (IdsTellApart nodes) := by
  unfold IdsTellApart
  infer_instance

/-- Which node lies below which, for all nodes of a list. -/
def linksOf (nodes : List Node) : List (String × Option String) :=
  nodes.map fun node => (node.id, node.parent)

namespace Graph

/-- A graph that took over the nodes of a text from another graph. -/
structure Reconciled (before : Graph) (nodes : List Node) (after : Graph) : Prop where
  /-- the nodes are those of the text -/
  parsed : after.nodes.map (·.toNode) = nodes
  /-- a node that was there keeps its place -/
  kept : ∀ node ∈ after.nodes, ∀ previous, before.node? node.id = some previous →
    node.position = previous.position
  /-- the edges drawn by hand are those whose ends are in the text, in their order -/
  byHand : after.userEdges = before.userEdges.filter fun edge =>
    nodes.any (·.id == edge.source) && nodes.any (·.id == edge.target)
  /-- each node with a parent has one containment edge, and there are no others -/
  contained : (after.edges.filter (·.isContainment)).map (fun edge =>
      (edge.id, edge.source, edge.target)) =
    nodes.filterMap fun node => node.parent.map fun parent =>
      (node.id ++ "->" ++ parent, node.id, parent)

theorem sameTopology_iff {graph other : Graph} :
    graph.sameTopology other = true ↔ ∀ link, link ∈ graph.links ↔ link ∈ other.links := by
  simp only [sameTopology, Bool.and_eq_true, List.all_eq_true, List.contains_iff_mem]
  exact ⟨fun same link => ⟨same.1 link, same.2 link⟩,
    fun same => ⟨fun link => (same link).mp, fun link => (same link).mpr⟩⟩

theorem isContainment_containmentEdge (child parent : CanvasNode) :
    (containmentEdge child parent).isContainment = true := Edge.isContainment_of_data rfl

variable {nodes : List Node}

/-- Nodes with different ids are placed as they are listed. -/
theorem nodes_ofNodes (apart : (nodes.map Node.id).Nodup) :
    (ofNodes nodes []).nodes = nodes.map (CanvasNode.place .origin) := by
  refine collect_of_nodup ?_
  rw [List.map_map]
  exact apart

theorem links_ofNodes (apart : (nodes.map Node.id).Nodup) :
    (ofNodes nodes []).links = linksOf nodes := by
  rw [links, nodes_ofNodes apart, List.map_map]
  rfl

theorem toNode_merge (before : Graph) (positions : Catalog Point)
    (apart : (nodes.map Node.id).Nodup) :
    (before.merge (ofNodes nodes []) positions).nodes.map (·.toNode) = nodes := by
  show (mergeNodes before (ofNodes nodes []) positions).map (·.toNode) = nodes
  rw [mergeNodes, nodes_ofNodes apart, List.map_map, List.map_map]
  exact List.map_id nodes

theorem hasNode_of_toNode {graph : Graph} (same : graph.nodes.map (·.toNode) = nodes)
    (id : String) : graph.hasNode id = nodes.any (·.id == id) := by
  rw [hasNode, ← same, List.any_map]
  rfl

theorem position_merge (before fresh : Graph) (positions : Catalog Point) :
    ∀ node ∈ (before.merge fresh positions).nodes, ∀ previous,
      before.node? node.id = some previous → node.position = previous.position := by
  intro node member previous found
  obtain ⟨parsed, -, rfl⟩ := List.mem_map.mp member
  have found : before.node? parsed.id = some previous := found
  simp only [found]

/-- The parent of a parsed node is in the graph, so the node gets its edge. -/
theorem parentOf?_of_parsed {length : Nat} (forest : PreorderForest length nodes) {graph : Graph}
    (same : graph.nodes.map (·.toNode) = nodes) {node : CanvasNode} (member : node ∈ graph.nodes) :
    (graph.parentOf? node).map (·.id) = node.parent := by
  cases parent : node.parent with
  | none => simp [parentOf?, parent, Text.given?]
  | some id =>
    have listed : node.toNode ∈ nodes := same ▸ List.mem_map_of_mem member
    obtain ⟨before, after, parts⟩ := List.append_of_mem listed
    obtain ⟨outer, inside, rfl, -⟩ := forest.enclosed before _ after id parts parent
    have outerListed : outer ∈ nodes := parts ▸ List.mem_append_left _ inside
    obtain ⟨span, -, -, -, -, named⟩ := forest.located outer outerListed
    have filled : outer.id ≠ "" := named ▸ nodeId_ne_empty _ _ _
    have found : graph.hasNode outer.id = true := by
      rw [hasNode_of_toNode same]
      exact List.any_eq_true.mpr ⟨outer, outerListed, by simp⟩
    obtain ⟨placed, placedMember, placedId⟩ := List.any_eq_true.mp found
    have someFound : (graph.nodes.find? (·.id == outer.id)).isSome = true :=
      List.find?_isSome.mpr ⟨placed, placedMember, placedId⟩
    obtain ⟨first, firstFound⟩ := Option.isSome_iff_exists.mp someFound
    have firstId : first.id = outer.id := by simpa using List.find?_some firstFound
    simp [parentOf?, parent, Text.given?, Text.nonempty?, filled, node?, firstFound, firstId]

/-- Merging the nodes of a text reconciles a graph with it. -/
theorem reconciled_merge {length : Nat} (before : Graph) (positions : Catalog Point)
    (forest : PreorderForest length nodes) (apart : IdsTellApart nodes) :
    before.Reconciled nodes (before.merge (ofNodes nodes []) positions) := by
  have same := toNode_merge before positions (forest.nodup apart)
  -- the merged graph looks for parents and ends of edges before it has its edges
  let merged : Graph := { nodes := before.mergeNodes (ofNodes nodes []) positions }
  have same' : merged.nodes.map (·.toNode) = nodes := same
  have known : (fun edge : Edge => merged.hasNode edge.source && merged.hasNode edge.target) =
      fun edge => nodes.any (·.id == edge.source) && nodes.any (·.id == edge.target) := by
    funext edge
    rw [hasNode_of_toNode same', hasNode_of_toNode same']
  have edges : (before.merge (ofNodes nodes []) positions).edges =
      (before.userEdges.filter fun edge =>
        nodes.any (·.id == edge.source) && nodes.any (·.id == edge.target)) ++
      merged.containmentEdges := by
    rw [← known]
    rfl
  have drawn : ∀ edge ∈ before.userEdges.filter (fun edge =>
      nodes.any (·.id == edge.source) && nodes.any (·.id == edge.target)),
        edge.isContainment = false := fun edge member => by
    simpa using (List.mem_filter.mp (List.mem_filter.mp member).1).2
  have contained : ∀ edge ∈ merged.containmentEdges, edge.isContainment = true := by
    intro edge member
    obtain ⟨child, -, parent, -, rfl⟩ := mem_containmentEdges.mp member
    exact isContainment_containmentEdge child parent
  refine ⟨same, position_merge before _ positions, ?_, ?_⟩
  · have left : merged.containmentEdges.filter (fun edge => !edge.isContainment) = [] :=
      List.filter_eq_nil_iff.mpr fun edge member => by simp [contained edge member]
    rw [userEdges, edges, List.filter_append, left, List.append_nil]
    exact List.filter_eq_self.mpr fun edge member => by simp [drawn edge member]
  · rw [edges, List.filter_append, List.filter_eq_self.mpr contained,
      List.filter_eq_nil_iff.mpr fun edge member => by simp [drawn edge member], List.nil_append,
      containmentEdges, List.map_filterMap, ← same', List.filterMap_map]
    refine List.filterMap_congr fun child member => ?_
    rw [Function.comp, ← parentOf?_of_parsed forest same' member, Option.map_map, Option.map_map]
    rfl

end Graph

/-! ## Changes of the text -/

namespace Session

variable {session : Session} {text : String}

/-- It makes no difference to a change of the text what layout there is. -/
def LayoutUnasked (tell : Listener) (text : String) (session : Session) : Prop :=
  ∀ layout : LayoutEngine,
    (changeTextWith layout tell text).on session = (changeText tell text).on session

/-- If no node has come or gone or lies below another one, the layout is not asked. -/
theorem newPositions_same {fresh : Graph} (layout : LayoutEngine)
    (same : fresh.sameTopology session.graph = true) :
    newPositions layout fresh session = ([], session) := by
  have step : newPositions layout fresh session =
      (if fresh.sameTopology session.graph then pure [] else layout fresh :
        StateM Session (Catalog Point)) session := rfl
  rw [step, if_pos same]
  rfl

theorem mergeNodes_same {nodes : List Node} (layout : LayoutEngine)
    (same : (Graph.ofNodes nodes []).sameTopology session.graph = true) :
    (mergeNodes layout nodes session).2 =
      { session with graph := session.graph.merge (.ofNodes nodes []) [] } := by
  have step : (mergeNodes layout nodes session).2 =
      (let placed := newPositions layout (.ofNodes nodes []) session
      { placed.2 with graph := placed.2.graph.merge (.ofNodes nodes []) placed.1 }) := rfl
  rw [step, newPositions_same layout same]

theorem followText_same {nodes : List Node} (layout layout' : LayoutEngine) (tell : Listener)
    (parsed : parse session.setup.settings.reclassify text = .ok nodes)
    (same : (Graph.ofNodes nodes []).sameTopology session.graph = true) :
    followText layout tell text session = followText layout' tell text session := by
  have same' : (Graph.ofNodes nodes []).sameTopology { session with text }.graph = true := same
  rw [followText_eq, followText_eq, parsed]
  dsimp only
  rw [mergeNodes_same layout same', mergeNodes_same layout' same']

theorem layoutUnasked_of_sameTopology {nodes : List Node} (tell : Listener)
    (idle : session.phase = .idle) (other : text ≠ session.text)
    (parsed : parse session.setup.settings.reclassify text = .ok nodes)
    (same : (Graph.ofNodes nodes []).sameTopology session.graph = true) :
    session.LayoutUnasked tell text := by
  intro layout
  have unasked : followText layout tell text { session with phase := .applyingText } =
      followText (computeLayout tell) tell text { session with phase := .applyingText } :=
    followText_same _ _ tell parsed same
  rw [changeText, changeTextWith_eq _ tell text session idle other,
    changeTextWith_eq _ tell text session idle other, unasked]

/-- Following a text that is read takes over its nodes. -/
theorem picture_followText {tell : Listener} {nodes : List Node} (quiet : Quiet tell)
    (engaged : Engaged session) (parsed : parse session.setup.settings.reclassify text = .ok nodes) :
    ∃ positions, (followText (computeLayout tell) tell text session).1 = true ∧
      SamePicture { session with
          text, graph := session.graph.merge (.ofNodes nodes []) positions }
        (followText (computeLayout tell) tell text session).2 := by
  obtain ⟨positions, merged, -⟩ := picture_mergeNodes quiet (engaged.withText text) nodes
  have engaged' := ((engaged.withText text).withGraph _).of_same merged
  have saving := picture_saveGraph quiet engaged'
  have noting := picture_saveText quiet (engaged'.of_same saving) text
  have engaged'' := (engaged'.of_same saving).of_same noting
  have told := quiet .graph _ engaged''.busy engaged''.listeners
  rw [followText_eq, parsed]
  exact ⟨positions, rfl, merged.trans (saving.trans (noting.trans told.picture))⟩

/-- What comes of a command that changes the whole text. -/
theorem on_changeText (depth : Nat) (idle : session.phase = .idle) (other : text ≠ session.text) :
    (perform depth (.changeText (.whole text))).on session =
      (.ok (.flag (followText (computeLayout (listener depth)) (listener depth) text
          { session with phase := .applyingText }).1),
        { (followText (computeLayout (listener depth)) (listener depth) text
            { session with phase := .applyingText }).2 with phase := .idle }) := by
  rw [perform_eq]
  unfold performWith
  rw [Act.on_get]
  dsimp only
  rw [Act.on_map, TextEdit.apply, changeText, changeTextWith_eq _ _ text session idle other]
  rfl

/-- A session has followed a text with some nodes, with or without asking the layout. -/
structure Followed (depth : Nat) (session : Session) (text : String) (nodes : List Node) :
    Prop where
  phase : (session.next depth (.changeText (.whole text))).phase = .idle
  taken : (session.next depth (.changeText (.whole text))).text = text
  graph : session.graph.Reconciled nodes (session.next depth (.changeText (.whole text))).graph
  /-- the layout is not asked if no node has come or gone or lies below another one -/
  layout : (∀ link, link ∈ linksOf nodes ↔ link ∈ session.graph.links) →
    session.LayoutUnasked (listener depth) text

/-- A session has refused a text: the graph and all that is stored are as before, and a notice says
where the text is wrong. Further notices are there only if a listener asks for diagnostics. -/
structure Refused (depth : Nat) (session : Session) (text : String) (error : LexicalError) :
    Prop where
  result : ((perform depth (.changeText (.whole text))).on session).1 = .ok (.flag false)
  phase : (session.next depth (.changeText (.whole text))).phase = .idle
  graph : (session.next depth (.changeText (.whole text))).graph = session.graph
  storage : (session.next depth (.changeText (.whole text))).storage = session.storage
  ledger : (session.next depth (.changeText (.whole text))).ledger? = session.ledger?
  notices : ∃ heard, (session.next depth (.changeText (.whole text))).notices =
      session.notices ++
        { message := error.message, source := "parser", offset := some error.offset } :: heard ∧
    ∀ notice ∈ heard, notice.OfDiagnostics ∧ session.setup.Gives .diagnose

theorem followed_of_parse {length : Nat} {nodes : List Node} (depth : Nat)
    (idle : session.phase = .idle) (listeners : session.setup.OperatesOnly)
    (other : text ≠ session.text)
    (parsed : parse session.setup.settings.reclassify text = .ok nodes)
    (forest : PreorderForest length nodes) :
    ((perform depth (.changeText (.whole text))).on session).1 = .ok (.flag true) ∧
      (IdsTellApart nodes → session.Followed depth text nodes) := by
  have engaged : Engaged { session with phase := .applyingText } := ⟨by simp, listeners⟩
  obtain ⟨positions, followed, same⟩ := picture_followText (quiet_listener depth) engaged parsed
  have graph : (session.next depth (.changeText (.whole text))).graph =
      session.graph.merge (.ofNodes nodes []) positions := by
    rw [next, on_changeText depth idle other]
    exact same.graph
  refine ⟨by rw [on_changeText depth idle other, followed], fun apart => ?_⟩
  refine ⟨?_, ?_, ?_, fun links => ?_⟩
  · rw [next, on_changeText depth idle other]
  · rw [next, on_changeText depth idle other]
    exact same.text
  · rw [graph]
    exact session.graph.reconciled_merge positions forest apart
  · refine layoutUnasked_of_sameTopology _ idle other parsed (Graph.sameTopology_iff.mpr ?_)
    rw [Graph.links_ofNodes (forest.nodup apart)]
    exact links

theorem refused_of_error {error : LexicalError} (depth : Nat) (idle : session.phase = .idle)
    (listeners : session.setup.OperatesOnly) (other : text ≠ session.text)
    (unread : parse session.setup.settings.reclassify text = .error error) :
    session.Refused depth text error := by
  have engaged : Engaged { session with phase := .applyingText, text } := ⟨by simp, listeners⟩
  obtain ⟨same, notices, storage, ledger⟩ := picture_notify (quiet_listener depth) engaged
    { message := error.message, source := "parser", offset := some error.offset }
  have after := on_changeText depth idle other
  rw [followText_eq, unread] at after
  refine ⟨by rw [after], ?_, ?_, ?_, ?_, ?_⟩ <;> rw [next, after]
  · exact same.graph
  · exact storage
  · exact ledger
  · exact notices

/-- **Reconciliation**: a text that can be cut into tokens is followed by a graph with its nodes, which
has from before only the places of nodes and the edges drawn by hand between nodes of the text. A
text that cannot be cut into tokens is refused. -/
theorem reconciled_changeText (depth : Nat) (idle : session.phase = .idle)
    (listeners : session.setup.OperatesOnly) (other : text ≠ session.text) :
    ((tokenize text).isOk = true → ∃ nodes,
      parse session.setup.settings.reclassify text = .ok nodes ∧
        ((perform depth (.changeText (.whole text))).on session).1 = .ok (.flag true) ∧
        (IdsTellApart nodes → session.Followed depth text nodes)) ∧
    (∀ error, tokenize text = .error error → session.Refused depth text error) := by
  refine ⟨fun tokenizes => ?_, fun error untokenized => ?_⟩
  · obtain ⟨nodes, parsed, forest⟩ :=
      preorderForest_of_parse session.setup.settings.reclassify tokenizes
    exact ⟨nodes, parsed, followed_of_parse depth idle listeners other parsed forest⟩
  · refine refused_of_error depth idle listeners other ?_
    rw [parse, outline, untokenized]
    rfl

/-- A session whose text has been read, and in which an edge has been drawn by hand. -/
def drawnUpon : Session :=
  ((start {} none {}).next 0 (.changeText (.whole "const a = 1; const b = 2;"))).next 0
    (.connect "#1" "#3" none none)

/-- A declaration that stays is followed by another one. -/
theorem reconciled_drawnUpon :
    ∃ nodes, parse true "const a = 1; let c = f(2);" = .ok nodes ∧
      drawnUpon.Followed 0 "const a = 1; let c = f(2);" nodes := by
  have apart : ∀ nodes ∈ (parse true "const a = 1; let c = f(2);").toOption,
      IdsTellApart nodes := by decide +kernel
  have idle : drawnUpon.phase = .idle := by decide +kernel
  have other : "const a = 1; let c = f(2);" ≠ drawnUpon.text := by decide +kernel
  have unheard : drawnUpon.setup.listeners = [] := by decide +kernel
  have reclassifies : drawnUpon.setup.settings.reclassify = true := by decide +kernel
  have listeners : drawnUpon.setup.OperatesOnly := by
    rintro command ⟨entry, listed, -⟩
    rw [unheard] at listed
    cases listed
  obtain ⟨nodes, parsed, -, followed⟩ :=
    (reconciled_changeText 0 idle listeners other).1 (by decide +kernel)
  rw [reclassifies] at parsed
  exact ⟨nodes, parsed, followed (apart nodes (by rw [parsed]; rfl))⟩

end Session

end SourceCanvas
