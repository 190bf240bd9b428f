import SourceCanvas.Proofs.MovingLaws

/-!
# Mirroring

A store mirrors a graph if the records that it lists and the nodes and edges of the graph belong
together one by one (`Graph.MirroredBy`). After a text is read, or after a change that the text does
not show, the store always mirrors the graph. After a change that is written into the text it does
if and only if the change moves no node to where an edge still is (`Session.Undisturbed`). So a
store mirrors the graph all along a run if and only if no change of the run disturbs it
(`Session.mirrors_iff_undisturbed`).
-/

namespace SourceCanvas

/-! ## Mirrors -/

/-- What a store keeps of an edge is what the edge looks like, between the records of its ends. -/
structure EdgeEntry.Shows (nodes : List StoredNode) (entry : EdgeEntry) (edge : Edge) : Prop where
  sourceHandle : entry.sourceHandle = edge.sourceHandle
  targetHandle : entry.targetHandle = edge.targetHandle
  data : entry.data = .object (Catalog.insert "localId" (.string edge.id) edge.data)
  source : ∃ node ∈ nodes, localId? node.data = some edge.source ∧ entry.source = some node.id
  target : ∃ node ∈ nodes, localId? node.data = some edge.target ∧ entry.target = some node.id

/-- Records of nodes and of edges belong one by one to the nodes and edges of a graph, by the ids
that they are labelled with, and show them. -/
structure Graph.MirroredBy (graph : Graph) (storedNodes : List StoredNode)
    (storedEdges : List StoredEdge) : Prop where
  nodes : ∀ node ∈ graph.nodes, ∃! record : StoredNode,
    record ∈ storedNodes ∧ localId? record.data = some node.id
  nodesOnly : ∀ record ∈ storedNodes, ∃! node : CanvasNode,
    node ∈ graph.nodes ∧ localId? record.data = some node.id
  nodesShown : ∀ node ∈ graph.nodes, ∀ record ∈ storedNodes,
    localId? record.data = some node.id → record.toNodeEntry.Shows node
  edges : ∀ edge ∈ graph.edges, ∃! record : StoredEdge,
    record ∈ storedEdges ∧ localId? record.data = some edge.id
  edgesOnly : ∀ record ∈ storedEdges, ∃! edge : Edge,
    edge ∈ graph.edges ∧ localId? record.data = some edge.id
  edgesShown : ∀ edge ∈ graph.edges, ∀ record ∈ storedEdges,
    localId? record.data = some edge.id → record.toEdgeEntry.Shows storedNodes edge

/-- What the store of a session lists of a flow mirrors the graph. -/
def Session.Mirrors (flow : String) (session : Session) : Prop :=
  ∃ storage nodes edges, session.storage = some storage ∧
    storage.store.read (.listNodes (some flow)) = .ok (.nodes nodes) ∧
    storage.store.read (.listEdges (some flow)) = .ok (.edges edges) ∧
    session.graph.MirroredBy nodes edges

theorem Session.mirrors_iff (flow : String) {session : Session} {ledger : Ledger}
    (kept : session.ledger? = some ledger) : session.Mirrors flow ↔
      session.graph.MirroredBy (ledger.store.nodesOf flow) (ledger.store.edgesOf flow) := by
  obtain ⟨storage, stored, rfl⟩ := Option.map_eq_some_iff.mp kept
  constructor
  · rintro ⟨storage', nodes, edges, stored', listed, listed', mirrored⟩
    rw [stored] at stored'
    cases stored'
    rw [Store.read_listNodes] at listed
    rw [Store.read_listEdges] at listed'
    cases listed
    cases listed'
    exact mirrored
  · intro mirrored
    exact ⟨storage, _, _, stored, Store.read_listNodes _ _, Store.read_listEdges _ _, mirrored⟩

namespace Ledger

variable {flow : String} {graph : Graph} {ledger ledger' : Ledger} {id : String}

/-! ## What is listed of a saved graph -/

section Saved

variable (saved : Saved flow graph ledger ledger')

include saved

theorem Saved.listed_node {node : CanvasNode} (member : node ∈ graph.nodes) :
    ∃ record ∈ ledger'.store.nodesOf flow, ledger'.nodeRecords.get? node.id = some record.id ∧
      localId? record.data = some node.id ∧ record.toNodeEntry.Shows node := by
  obtain ⟨record, entry, found, has, label, shows_⟩ := saved.nodes node member
  refine ⟨{ entry with id := record }, Store.mem_nodesOf.mpr ⟨has, ?_⟩, found, label, shows_⟩
  exact saved.recorded.nodesFlow node.id record entry found has

/-- If the ledger knows all nodes of the flow, a listed one is that of the node it is labelled
with. -/
theorem Saved.node_of_listed (owns : ledger.Owns flow) {record : StoredNode}
    (listed : record ∈ ledger'.store.nodesOf flow) :
    ∃ node ∈ graph.nodes, ledger'.nodeRecords.get? node.id = some record.id ∧
      localId? record.data = some node.id ∧ record.toNodeEntry.Shows node := by
  obtain ⟨has, inFlow⟩ := Store.mem_nodesOf.mp listed
  obtain ⟨id, found⟩ := saved.owns owns record.id record.toNodeEntry has inFlow
  obtain ⟨node, member, rfl⟩ := List.mem_map.mp (saved.nodesOnly id record.id found)
  obtain ⟨record', entry, found', has', label, shows_⟩ := saved.nodes node member
  cases found.symm.trans found'
  cases saved.recorded.tidy.node_unique has has'
  exact ⟨node, member, found, label, shows_⟩

/-- A listed edge is that of the edge it is labelled with. -/
theorem Saved.edge_of_listed {record : StoredEdge}
    (listed : record ∈ ledger'.store.edgesOf flow) :
    ∃ edge ∈ graph.edges, ledger'.edgeRecords.get? edge.id = some record.id ∧
      localId? record.data = some edge.id := by
  obtain ⟨has, inFlow⟩ := Store.mem_edgesOf.mp listed
  obtain ⟨id, found⟩ := saved.recorded.edgesKnown record.id record.toEdgeEntry has inFlow
  obtain ⟨-, label⟩ := saved.recorded.edgesFlow id record.id record.toEdgeEntry found has
  obtain ⟨edge, member, rfl⟩ := saved.edgesOnly id record.id found
  exact ⟨edge, member, found, label⟩

end Saved

/-! ## Kept ledgers -/

/-- What holds of a ledger of a flow between changes: all that is stored of the flow is known, all
that is known is stored, and an edge that has a snapshot is held between the nodes it names. -/
structure Kept (flow : String) (ledger : Ledger) : Prop extends ledger.Recorded flow where
  owns : ledger.Owns flow
  stored : ∀ id record, ledger.nodeRecords.get? id = some record →
    ∃ entry, ledger.store.HasNode record entry
  edgesShown : ∀ id snapshot, ledger.edgeSnapshots.get? id = some snapshot →
    ∃ edge : Edge, edge.Proper ∧ edge.id = id ∧ edge.snapshot = snapshot ∧
      ledger.HoldsEdge flow edge

/-- An edge that looks as it did when it was last written is held as it is. -/
theorem Kept.holdsEdge (kept : ledger.Kept flow) {edge : Edge} (proper : edge.Proper)
    (looks : ledger.Matches edge) : ledger.HoldsEdge flow edge := by
  obtain ⟨edge', proper', ids, same, holds⟩ := kept.edgesShown edge.id edge.snapshot looks
  rwa [Edge.eq_of_snapshot proper' proper ids same] at holds

/-- A ledger from which saving a graph makes a mirror. -/
structure Ready (flow : String) (graph : Graph) (ledger : Ledger) : Prop where
  recorded : ledger.Recorded flow
  owns : ledger.Owns flow
  held : ∀ edge ∈ graph.edges, ledger.Matches edge → ledger.HoldsEdge flow edge

theorem Kept.ready (kept : ledger.Kept flow) (sound : graph.Sound) : ledger.Ready flow graph where
  recorded := kept.toRecorded
  owns := kept.owns
  held := fun edge member looks => kept.holdsEdge (sound.proper edge member) looks

theorem Saved.holdsEdge (saved : Saved flow graph ledger ledger') (sound : graph.Sound)
    (ready : ledger.Ready flow graph) {edge : Edge} (member : edge ∈ graph.edges) :
    ledger'.HoldsEdge flow edge := by
  rcases saved.advances.looked edge member (saved.edges edge member) with looks | holds
  · exact saved.advances.holdsEdge sound member looks (ready.held edge member looks)
  · exact holds

theorem Saved.kept (saved : Saved flow graph ledger ledger') (sound : graph.Sound)
    (ready : ledger.Ready flow graph) : ledger'.Kept flow where
  toRecorded := saved.recorded
  owns := saved.owns ready.owns
  stored := by
    intro id record found
    obtain ⟨node, member, rfl⟩ := List.mem_map.mp (saved.nodesOnly id record found)
    obtain ⟨record', entry, found', has, -⟩ := saved.nodes node member
    cases found.symm.trans found'
    exact ⟨entry, has⟩
  edgesShown := by
    intro id snapshot seen
    obtain ⟨record, found⟩ := saved.recorded.edgesSeen id snapshot seen
    obtain ⟨edge, member, rfl⟩ := saved.edgesOnly id record found
    have looks : ledger'.edgeSnapshots.get? edge.id = some edge.snapshot := saved.edges edge member
    rw [seen] at looks
    cases looks
    exact ⟨edge, sound.proper edge member, rfl, rfl, saved.holdsEdge sound ready member⟩

/-- Saving a graph makes a mirror of it. -/
theorem Saved.mirrored (saved : Saved flow graph ledger ledger') (sound : graph.Sound)
    (ready : ledger.Ready flow graph) :
    graph.MirroredBy (ledger'.store.nodesOf flow) (ledger'.store.edgesOf flow) where
  nodes := by
    intro node member
    obtain ⟨record, listed, found, label, -⟩ := saved.listed_node member
    refine ⟨record, ⟨listed, label⟩, ?_⟩
    rintro other ⟨listed', label'⟩
    obtain ⟨node', member', found', label'', -⟩ := saved.node_of_listed ready.owns listed'
    rw [label'] at label''
    cases List.inj_on_of_nodup_map sound.apart member member' (Option.some.inj label'')
    have ids : other.id = record.id := Option.some.inj (found'.symm.trans found)
    exact List.inj_on_of_nodup_map saved.recorded.tidy.nodup_nodesOf listed' listed ids
  nodesOnly := by
    intro record listed
    obtain ⟨node, member, found, label, -⟩ := saved.node_of_listed ready.owns listed
    refine ⟨node, ⟨member, label⟩, ?_⟩
    rintro other ⟨member', label'⟩
    rw [label] at label'
    exact List.inj_on_of_nodup_map sound.apart member' member (Option.some.inj label').symm
  nodesShown := by
    intro node member record listed label
    obtain ⟨node', member', -, label', shows_⟩ := saved.node_of_listed ready.owns listed
    rw [label] at label'
    cases List.inj_on_of_nodup_map sound.apart member member' (Option.some.inj label')
    exact shows_
  edges := by
    intro edge member
    obtain ⟨record, source, target, found, -, -, has⟩ := saved.holdsEdge sound ready member
    have listed : { edge.entry (some flow) source target with id := record } ∈
        ledger'.store.edgesOf flow := Store.mem_edgesOf.mpr ⟨has, rfl⟩
    refine ⟨_, ⟨listed, localId_edge _ _ _ _⟩, ?_⟩
    rintro other ⟨listed', label⟩
    obtain ⟨edge', member', found', label'⟩ := saved.edge_of_listed listed'
    rw [label] at label'
    cases List.inj_on_of_nodup_map sound.edgesApart member member' (Option.some.inj label')
    have ids : other.id = record := Option.some.inj (found'.symm.trans found)
    exact List.inj_on_of_nodup_map saved.recorded.tidy.nodup_edgesOf listed' listed ids
  edgesOnly := by
    intro record listed
    obtain ⟨edge, member, found, label⟩ := saved.edge_of_listed listed
    refine ⟨edge, ⟨member, label⟩, ?_⟩
    rintro other ⟨member', label'⟩
    rw [label] at label'
    exact List.inj_on_of_nodup_map sound.edgesApart member' member (Option.some.inj label').symm
  edgesShown := by
    intro edge member record listed label
    obtain ⟨edge', member', known, label'⟩ := saved.edge_of_listed listed
    rw [label] at label'
    cases List.inj_on_of_nodup_map sound.edgesApart member member' (Option.some.inj label')
    obtain ⟨record', source, target, found, from_, into, has⟩ := saved.holdsEdge sound ready member
    cases known.symm.trans found
    have same := saved.recorded.tidy.edge_unique (Store.mem_edgesOf.mp listed).1 has
    have end_ {id known : String} (inside : id ∈ graph.ids)
        (found : ledger'.nodeRecords.get? id = some known) :
        ∃ node ∈ ledger'.store.nodesOf flow, localId? node.data = some id ∧
          some known = some node.id := by
      obtain ⟨node, member, rfl⟩ := List.mem_map.mp inside
      obtain ⟨record, listed, found', label, -⟩ := saved.listed_node member
      exact ⟨record, listed, label, found.symm.trans found'⟩
    obtain ⟨sourceLives, targetLives⟩ := sound.live edge member
    rw [same]
    exact {
      sourceHandle := rfl
      targetHandle := rfl
      data := rfl
      source := end_ sourceLives from_
      target := end_ targetLives into }

/-! ## What is no mirror -/

section NoMirror

variable (saved : Saved flow graph ledger ledger')
  (mirrored : graph.MirroredBy (ledger'.store.nodesOf flow) (ledger'.store.edgesOf flow))

include saved mirrored

/-- In a mirror the node that a record is labelled with has this record. -/
theorem Saved.record_of_label {record : StoredNode} (member : id ∈ graph.ids)
    (listed : record ∈ ledger'.store.nodesOf flow) (label : localId? record.data = some id) :
    ledger'.nodeRecords.get? id = some record.id := by
  obtain ⟨node, inside, rfl⟩ := List.mem_map.mp member
  obtain ⟨own, listed', found, label', -⟩ := saved.listed_node inside
  rwa [(mirrored.nodes node inside).unique ⟨listed, label⟩ ⟨listed', label'⟩]

/-- What is stored without being known is no part of a mirror. -/
theorem Saved.not_orphan {record : String} (orphan : ledger.Orphan flow record) : False := by
  obtain ⟨drawn, unknown, entry, has, inFlow⟩ := orphan
  have listed : { entry with id := record } ∈ ledger'.store.nodesOf flow :=
    Store.mem_nodesOf.mpr ⟨saved.advances.orphans record entry drawn unknown has, inFlow⟩
  obtain ⟨node, ⟨member, label⟩, -⟩ := mirrored.nodesOnly _ listed
  have found := saved.record_of_label mirrored (List.mem_map_of_mem member) listed label
  rcases saved.advances.origin node.id record found with known | ⟨-, undrawn⟩
  · exact unknown node.id known
  · exact undrawn drawn

end NoMirror

/-- An edge looks as it did when it was last written, but if it is stored, then not between the
records of its ends. -/
def Astray (ledger : Ledger) (edge : Edge) : Prop :=
  ledger.Matches edge ∧ ∃ record from_ into, ledger.edgeRecords.get? edge.id = some record ∧
    (∀ entry, ledger.store.HasEdge record entry →
      entry.source = some from_ ∧ entry.target = some into) ∧
    ledger.Drawn from_ ∧ ledger.Drawn into ∧
    (ledger.nodeRecords.get? edge.source ≠ some from_ ∨
      ledger.nodeRecords.get? edge.target ≠ some into)

/-- An edge that is astray when a graph is saved is not mirrored. -/
theorem Saved.not_astray (saved : Saved flow graph ledger ledger') (sound : graph.Sound)
    (mirrored : graph.MirroredBy (ledger'.store.nodesOf flow) (ledger'.store.edgesOf flow))
    {edge : Edge} (member : edge ∈ graph.edges) (astray : ledger.Astray edge) : False := by
  obtain ⟨looks, record, from_, into, found, ends, drawn, drawn', away⟩ := astray
  obtain ⟨stored, ⟨listed, label⟩, -⟩ := mirrored.edges edge member
  -- The listed edge is the one that was stored before, since it is not written again.
  obtain ⟨other, member', found', label'⟩ := saved.edge_of_listed listed
  rw [label] at label'
  cases List.inj_on_of_nodup_map sound.edgesApart member member' (Option.some.inj label')
  have same : stored.id = record := by
    have still := (saved.advances.still edge member looks).2
    exact Option.some.inj ((found'.symm.trans still).trans found)
  have has := (Store.mem_edgesOf.mp listed).1
  rw [same] at has
  obtain ⟨source, target⟩ := ends _ (saved.advances.unwritten edge member looks record _ found has)
  have shown := mirrored.edgesShown edge member stored listed label
  obtain ⟨sourceLives, targetLives⟩ := sound.live edge member
  -- So an end that is mirrored has the record that was stored for it.
  have known {id end_ : String} (lives : id ∈ graph.ids) (drawn : ledger.Drawn end_)
      {stored : Option String} (stands : stored = some end_)
      (shown : ∃ node ∈ ledger'.store.nodesOf flow, localId? node.data = some id ∧
        stored = some node.id) : ledger.nodeRecords.get? id = some end_ := by
    obtain ⟨node, listed, label, equal⟩ := shown
    have found := saved.record_of_label mirrored lives listed label
    rw [← equal, stands] at found
    exact (saved.advances.origin id end_ found).resolve_right fun fresh => fresh.2 drawn
  rcases away with other | other
  · exact other (known sourceLives drawn source shown.source)
  · exact other (known targetLives drawn' target shown.target)

/-! ## Moves -/

/-- Nodes that are renamed do not get the same id, and no edge that looks as it did when it was last
written has an end whose id another node gets. -/
structure Undisturbed (renamed : Catalog String) (nodeRecords : Catalog String)
    (edgeSnapshots : Catalog Json) (graph : Graph) : Prop where
  clashless : Clashless renamed nodeRecords
  free : ∀ edge ∈ graph.edges, edgeSnapshots.get? edge.id = some edge.snapshot →
    edge.source ∉ renamed.map (·.2) ∧ edge.target ∉ renamed.map (·.2)

section Moves

variable {base : Graph} {renamed : Catalog String}

theorem undisturbed_nil (records : Catalog String) (snapshots : Catalog Json) (graph : Graph) :
    Undisturbed [] records snapshots graph :=
  ⟨fun _ _ _ _ named => absurd named List.not_mem_nil, fun _ _ _ =>
    ⟨List.not_mem_nil, List.not_mem_nil⟩⟩

/-- In a settled graph no node has an id that is renamed, unless another node gets it. -/
theorem not_mem_names_of_settled (settled : Graph.Settled base (graph, renamed))
    (lives : id ∈ graph.ids) (free : id ∉ renamed.map (·.2)) : id ∉ renamed.names := by
  intro named
  obtain ⟨old, -, same⟩ := (settled.ids id).mp lives
  rcases newId_mem renamed old with same' | given
  · obtain ⟨new, found⟩ := Option.isSome_iff_exists.mp (Catalog.get?_isSome_iff.mpr named)
    have equal : Graph.newId renamed old = new := by
      rw [← same'.symm.trans same] at found
      rw [Graph.newId, found]
      rfl
    exact settled.different id new found (same.symm.trans equal)
  · rw [same] at given
    exact free given

/-- After a move that disturbs nothing the ledger is ready for the settled graph. -/
theorem Moves.ready (kept : ledger.Kept flow) (moves : ledger.Moves renamed ledger')
    (settled : Graph.Settled base (graph, renamed))
    (undisturbed : Undisturbed renamed ledger.nodeRecords ledger.edgeSnapshots graph) :
    ledger'.Ready flow graph := by
  rcases moves with ⟨-, rfl⟩ | ⟨left, drops, rfl⟩
  · exact kept.ready settled.sound
  · have dropped := drops.dropped kept.tidy kept.nodesNamed (kept.nodesNamed.filter _)
    refine ⟨kept.move dropped, kept.owns.move dropped undisturbed.clashless, ?_⟩
    intro edge member looks
    have looks : left.edgeSnapshots.get? edge.id = some edge.snapshot := looks
    rw [dropped.edgeSnapshots] at looks
    obtain ⟨sourceFree, targetFree⟩ := undisturbed.free edge member looks
    obtain ⟨sourceLives, targetLives⟩ := settled.sound.live edge member
    exact (kept.holdsEdge (settled.sound.proper edge member) looks).move dropped kept.toRecorded
      ⟨not_mem_names_of_settled settled sourceLives sourceFree, sourceFree⟩
      ⟨not_mem_names_of_settled settled targetLives targetFree, targetFree⟩

/-- A move that disturbs something leaves an orphan or leads an edge astray. -/
theorem Moves.disturbed (kept : ledger.Kept flow) (moves : ledger.Moves renamed ledger')
    (settled : Graph.Settled base (graph, renamed))
    (disturbed : ¬Undisturbed renamed ledger.nodeRecords ledger.edgeSnapshots graph) :
    ledger'.Recorded flow ∧
      ((∃ record, ledger'.Orphan flow record) ∨ ∃ edge ∈ graph.edges, ledger'.Astray edge) := by
  rcases moves with ⟨rfl, rfl⟩ | ⟨left, drops, rfl⟩
  · exact absurd (undisturbed_nil _ _ _) disturbed
  · have dropped := drops.dropped kept.tidy kept.nodesNamed (kept.nodesNamed.filter _)
    refine ⟨kept.move dropped, ?_⟩
    by_cases clashless : Clashless renamed ledger.nodeRecords
    · right
      have taken : ¬∀ edge ∈ graph.edges, ledger.edgeSnapshots.get? edge.id = some edge.snapshot →
          edge.source ∉ renamed.map (·.2) ∧ edge.target ∉ renamed.map (·.2) :=
        fun free => disturbed ⟨clashless, free⟩
      simp only [not_forall] at taken
      obtain ⟨edge, member, looks, taken⟩ := taken
      obtain ⟨record, from_, into, found, fromKnown, intoKnown, has⟩ :=
        kept.holdsEdge (settled.sound.proper edge member) looks
      have drawn {record : String} (drawn : ledger.Drawn record) :
          (left.rename renamed).Drawn record := by
        show ∃ count ≤ left.drawn, _
        rw [dropped.drawn]
        exact drawn
      refine ⟨edge, member, ?_, record, from_, into, ?_, ?_, drawn (kept.nodesDrawn _ _ fromKnown),
        drawn (kept.nodesDrawn _ _ intoKnown), ?_⟩
      · show left.edgeSnapshots.get? edge.id = some edge.snapshot
        rw [dropped.edgeSnapshots]
        exact looks
      · show left.edgeRecords.get? edge.id = some record
        rw [dropped.edgeRecords]
        exact found
      · intro entry has'
        cases kept.tidy.edge_unique has (dropped.edges record entry has')
        exact ⟨rfl, rfl⟩
      · by_cases first : edge.source ∈ renamed.map (·.2)
        · exact .inl (away_of_taken dropped kept.toRecorded settled.different fromKnown first)
        · refine .inr (away_of_taken dropped kept.toRecorded settled.different intoKnown ?_)
          by_contra second
          exact taken ⟨first, second⟩
    · exact .inl (orphan_of_clash dropped kept.toRecorded kept.stored clashless)

end Moves

end Ledger

/-! ## Steps -/

/-- A command does not disturb what is stored, if it is written into the text. -/
def Session.Undisturbed (session : Session) (command : Command) : Prop :=
  ∀ change program, command.change? session = some change →
    (change session.graph).2 = .ok .visible →
    session.writing? (change session.graph).1 = some program →
      let settled := settle session.setup.settings.reclassify program (change session.graph).1
      Ledger.Undisturbed settled.2 session.nodeRecords session.edgeSnapshots settled.1

/-- A command that is not written into the text disturbs nothing. -/
theorem Session.undisturbed_of_unwritten {session : Session} {command : Command}
    (unwritten : ∀ change program, command.change? session = some change →
      (change session.graph).2 = .ok .visible →
      session.writing? (change session.graph).1 ≠ some program) : session.Undisturbed command :=
  fun change program asks happens written =>
    absurd written (unwritten change program asks happens)

section Steps

variable {flow : String} {session : Session} {ledger ledger' : Ledger} {command : Command}
  {applied : Bool} {graph : Graph}

/-- What an edit comes to leaves a graph sound. -/
theorem EditStep.sound (sound : session.graph.Sound)
    (step : EditStep session ledger command applied graph ledger') : graph.Sound := by
  cases step with
  | refused => exact sound
  | failed asks => exact sound.change asks
  | text asks parsed => exact sound.merge (Graph.plain_of_parse parsed) _
  | kept asks => exact sound.change asks
  | written asks => exact ((sound.change asks).settle _ _).sound

/-- What an edit comes to in a session whose ledger is kept. -/
inductive Mirroring (flow : String) (session : Session) (command : Command) (applied : Bool)
    (graph : Graph) (ledger' : Ledger) : Prop
  /-- the store mirrors the graph, if something has come of the edit -/
  | mirrors (undisturbed : session.Undisturbed command) (kept : ledger'.Kept flow)
    (mirrored : applied = true →
      graph.MirroredBy (ledger'.store.nodesOf flow) (ledger'.store.edgesOf flow))
  /-- the store does not mirror the graph -/
  | fails (disturbed : ¬session.Undisturbed command) (done : applied = true)
    (unmirrored : ¬graph.MirroredBy (ledger'.store.nodesOf flow) (ledger'.store.edgesOf flow))

theorem EditStep.mirroring (sound : session.graph.Sound) (known : session.ledger? = some ledger)
    (kept : ledger.Kept flow) (named : session.setup.flow = some flow)
    (step : EditStep session ledger command applied graph ledger') :
    Mirroring flow session command applied graph ledger' := by
  have soundAfter := step.sound sound
  cases step with
  | refused asks =>
    refine .mirrors (Session.undisturbed_of_unwritten ?_) kept (fun done => by cases done)
    intro change program asks'
    cases asks.symm.trans asks'
  | failed asks fails =>
    refine .mirrors (Session.undisturbed_of_unwritten ?_) kept (fun done => by cases done)
    intro change program asks' happens
    cases asks.symm.trans asks'
    exact absurd happens fails
  | text asks parsed saves notes =>
    rw [named] at saves
    have saved := notes.saved soundAfter (Ledger.saves_spec soundAfter kept.toRecorded saves)
    have ready := kept.ready soundAfter
    refine .mirrors (Session.undisturbed_of_unwritten ?_) (saved.kept soundAfter ready)
      (fun _ => saved.mirrored soundAfter ready)
    subst asks
    intro change program asks'
    cases asks'
  | kept asks happens unwritten saves =>
    rw [named] at saves
    have saved := Ledger.saves_spec soundAfter kept.toRecorded saves
    have ready := kept.ready soundAfter
    refine .mirrors (Session.undisturbed_of_unwritten ?_) (saved.kept soundAfter ready)
      (fun _ => saved.mirrored soundAfter ready)
    intro change program asks' visible
    cases asks.symm.trans asks'
    cases happens.symm.trans visible
    rw [unwritten rfl]
    simp
  | @written change program moved noted _ asks happens written moves notes saves =>
    rw [named] at saves
    have settled := (sound.change asks).settle session.setup.settings.reclassify program
    obtain ⟨storage, -, rfl⟩ := Option.map_eq_some_iff.mp known
    by_cases undisturbed : Ledger.Undisturbed
        (Session.settle session.setup.settings.reclassify program (change session.graph).1).2
        session.nodeRecords session.edgeSnapshots
        (Session.settle session.setup.settings.reclassify program (change session.graph).1).1
    · have moveReady := Ledger.Moves.ready kept moves settled undisturbed
      have saved := notes.saved_after moveReady.recorded soundAfter saves
      refine .mirrors ?_ (saved.kept soundAfter moveReady)
        (fun _ => saved.mirrored soundAfter moveReady)
      intro change' program' asks' _ written'
      cases asks.symm.trans asks'
      cases written.symm.trans written'
      exact undisturbed
    · obtain ⟨recorded, trouble⟩ := Ledger.Moves.disturbed kept moves settled undisturbed
      have saved := notes.saved_after recorded soundAfter saves
      refine .fails (fun free => undisturbed (free change program asks happens written)) rfl ?_
      intro mirrored
      rcases trouble with ⟨record, orphan⟩ | ⟨edge, member, astray⟩
      · exact saved.not_orphan mirrored orphan
      · exact saved.not_astray soundAfter mirrored member astray

end Steps

/-! ## Runs -/

namespace Session

/-- A session between commands, whose store holds what the ledger says. -/
structure Tracked (flow : String) (session : Session) : Prop where
  idle : session.phase = .idle
  edits : session.setup.EditsOnly
  named : session.setup.flow = some flow
  sound : session.graph.Sound
  known : ∃ ledger, session.ledger? = some ledger ∧ ledger.Kept flow

/-- If something comes of a command, the store mirrors the graph afterwards. -/
def MirrorsAfter (flow : String) (depth : Nat) (session : Session) (command : Command) : Prop :=
  session.applies depth command = true → (session.next depth command).Mirrors flow

/-- No call of the store fails in a command. -/
def Calm (depth : Nat) (session : Session) (command : Command) : Prop :=
  ¬Troubled (session.next depth command)

theorem Tracked.step {flow : String} {session : Session} {command : Command} (depth : Nat)
    (tracked : session.Tracked flow) (edit : command.isEdit = true)
    (calm : session.Calm depth command) :
    session.Undisturbed command ∧ (session.next depth command).Tracked flow ∧
        session.MirrorsAfter flow depth command ∨
      ¬session.Undisturbed command ∧ ¬session.MirrorsAfter flow depth command := by
  obtain ⟨idle, edits, named, sound, ledger, known, kept⟩ := tracked
  obtain ⟨setup, idle', -, ledger', known', step⟩ :=
    perform_edited depth idle edits.operatesOnly known named edit calm
  have mirrors := mirrors_iff flow known'
  cases step.mirroring sound known kept named with
  | mirrors undisturbed kept' mirrored =>
    refine .inl ⟨undisturbed, ?_, fun done => mirrors.mpr (mirrored done)⟩
    exact {
      idle := idle'
      edits := by
        rw [Setup.EditsOnly, next, setup]
        exact edits
      named := (congrArg Setup.flow setup).trans named
      sound := step.sound sound
      known := ⟨ledger', known', kept'⟩ }
  | fails disturbed done unmirrored =>
    exact .inr ⟨disturbed, fun mirrored => unmirrored (mirrors.mp (mirrored done))⟩

theorem Tracked.run {flow : String} {session : Session} {commands : List Command} (depth : Nat)
    (tracked : session.Tracked flow) (edits : ∀ command ∈ commands, command.isEdit = true)
    (calm : session.Always depth (Calm depth) commands) :
    session.Always depth (MirrorsAfter flow depth) commands ↔
      session.Always depth Undisturbed commands := by
  induction commands generalizing session with
  | nil => exact Iff.rfl
  | cons command rest ih =>
    obtain ⟨calm, restCalm⟩ := calm
    obtain ⟨edit, restEdits⟩ := List.forall_mem_cons.mp edits
    rcases tracked.step depth edit calm with
      ⟨undisturbed, tracked', mirrors⟩ | ⟨disturbed, unmirrored⟩
    · exact and_congr (iff_of_true mirrors undisturbed) (ih tracked' restEdits restCalm)
    · exact iff_of_false (fun good => unmirrored good.1) (fun good => disturbed good.1)

end Session

/-- A store has nothing of a flow, and nothing under the ids that records still get. -/
structure Store.Clear (flow : String) (drawn : Nat) (store : Store) : Prop where
  tidy : store.Tidy
  noNodes : ∀ record entry, store.HasNode record entry → entry.flow ≠ some flow
  noEdges : ∀ record entry, store.HasEdge record entry → entry.flow ≠ some flow
  past : ∀ count > drawn, ∀ entry entry', ¬store.HasNode (Supply.idOf "a000" count) entry ∧
    ¬store.HasEdge (Supply.idOf "a000" count) entry'

theorem Store.clear_memory (flow : String) (drawn : Nat) : Store.Clear flow drawn (.memory {}) where
  tidy := ⟨List.nodup_nil, List.nodup_nil⟩
  noNodes := fun _ _ has => absurd has List.not_mem_nil
  noEdges := fun _ _ has => absurd has List.not_mem_nil
  past := fun _ _ _ _ => ⟨List.not_mem_nil, List.not_mem_nil⟩

namespace Session

theorem tracked_start {flow : String} {setup : Setup} {storage : Storage} {supply : Supply}
    (edits : setup.EditsOnly) (named : setup.flow = some flow)
    (clear : storage.store.Clear flow supply.records) :
    (start setup (some storage) supply).Tracked flow where
  idle := rfl
  edits := edits
  named := named
  sound := Graph.sound_empty
  known := by
    refine ⟨_, rfl, ?_⟩
    exact {
      tidy := clear.tidy
      past := clear.past
      nodesNamed := List.nodup_nil
      edgesNamed := List.nodup_nil
      nodesApart := by simp [start, chooseStorage, ledgerWith]
      edgesApart := by simp [start, chooseStorage, ledgerWith]
      nodesDrawn := by simp [start, chooseStorage, ledgerWith]
      edgesDrawn := by simp [start, chooseStorage, ledgerWith]
      nodesFlow := by simp [start, chooseStorage, ledgerWith]
      edgesFlow := by simp [start, chooseStorage, ledgerWith]
      edgesKnown := fun record entry has inFlow => absurd inFlow (clear.noEdges record entry has)
      nodesShown := by simp [start, chooseStorage, ledgerWith]
      edgesSeen := by simp [start, chooseStorage, ledgerWith]
      owns := fun record entry has inFlow => absurd inFlow (clear.noNodes record entry has)
      stored := by simp [start, chooseStorage, ledgerWith]
      edgesShown := by simp [start, chooseStorage, ledgerWith] }

/-- **Mirroring**: along a run of edits in which no call of the store fails, the store mirrors the
graph after every command of which something comes, if and only if no command disturbs what is
stored. -/
theorem mirrors_iff_undisturbed {flow : String} {setup : Setup} {storage : Storage}
    {supply : Supply} {commands : List Command} (depth : Nat) (listeners : setup.EditsOnly)
    (named : setup.flow = some flow) (clear : storage.store.Clear flow supply.records)
    (edits : ∀ command ∈ commands, command.isEdit = true)
    (calm : (start setup (some storage) supply).Always depth (Calm depth) commands) :
    (start setup (some storage) supply).Always depth (MirrorsAfter flow depth) commands ↔
      (start setup (some storage) supply).Always depth Undisturbed commands :=
  (tracked_start listeners named clear).run depth edits calm

/-- A session with an empty store in memory. -/
def inMemory : Session := start { flow := some "flow" } (some { store := .memory {} }) {}

theorem calm_of_silent {depth : Nat} {session : Session} {command : Command}
    (silent : (session.next depth command).notices = []) : session.Calm depth command := by
  rintro ⟨notice, told, -⟩
  rw [silent] at told
  cases told

/-- A text whose declarations move when it is written anew. -/
def movingText : String := "                   export let a = 1;let b=2"

theorem calm_movingText : inMemory.Calm 0 (.changeText (.whole movingText)) := by
  have silent : (inMemory.next 0 (.changeText (.whole movingText))).notices = [] := by
    decide +kernel
  exact calm_of_silent silent

/-- Once a text is read, the store mirrors the graph. -/
theorem mirrors_after_text :
    inMemory.Always 0 (MirrorsAfter "flow" 0) [.changeText (.whole movingText)] := by
  refine (@mirrors_iff_undisturbed "flow" { flow := some "flow" } { store := .memory {} } {}
    [.changeText (.whole movingText)] 0 (fun _ member => absurd member List.not_mem_nil) rfl
    (Store.clear_memory _ _) (by simp [Command.isEdit]) ⟨calm_movingText, trivial⟩).mpr
    ⟨?_, trivial⟩
  intro change program asks
  cases asks

/-- A session in which a text has been read and written anew. -/
def rewritten : Session :=
  (inMemory.next 0 (.changeText (.whole movingText))).next 0 (.update "#0" [])

/-- An edge is stored between the records of nodes that are labelled with its ends. -/
theorem Mirrors.source {flow : String} {session : Session} (mirrors : session.Mirrors flow) :
    ∀ edge ∈ session.graph.edges,
      ∀ record ∈ (session.storage.map (·.store.edgesOf flow)).getD [],
        localId? record.data = some edge.id →
          ∃ node ∈ (session.storage.map (·.store.nodesOf flow)).getD [],
            localId? node.data = some edge.source ∧ record.source = some node.id := by
  obtain ⟨storage, nodes, edges, stored, listed, listed', mirrored⟩ := mirrors
  rw [Store.read_listNodes] at listed
  rw [Store.read_listEdges] at listed'
  cases listed
  cases listed'
  rw [stored]
  exact fun edge member record listed label =>
    (mirrored.edgesShown edge member record listed label).source

theorem not_mirrors_rewritten : ¬rewritten.Mirrors "flow" := by
  intro mirrors
  have astray : ¬∀ edge ∈ rewritten.graph.edges,
      ∀ record ∈ (rewritten.storage.map (·.store.edgesOf "flow")).getD [],
        localId? record.data = some edge.id →
          ∃ node ∈ (rewritten.storage.map (·.store.nodesOf "flow")).getD [],
            localId? node.data = some edge.source ∧ record.source = some node.id := by
    decide +kernel
  exact astray mirrors.source

/-- Writing a text anew moves the first declaration to the front, and the second one to where the
first one was. The stored edge of the first one stays, since it looks like the edge that the second
one gets, so the store mirrors the graph no longer. -/
theorem mirror_lost : ¬∀ (flow : String) (setup : Setup) (storage : Storage) (supply : Supply)
    (commands : List Command) (depth : Nat), setup.EditsOnly → setup.flow = some flow →
      storage.store.Clear flow supply.records → (∀ command ∈ commands, command.isEdit = true) →
      (start setup (some storage) supply).Always depth (Calm depth) commands →
      (start setup (some storage) supply).Always depth (MirrorsAfter flow depth) commands := by
  intro mirrors
  have silent : rewritten.notices = [] := by decide +kernel
  have applied : (inMemory.next 0 (.changeText (.whole movingText))).applies 0 (.update "#0" []) =
      true := by decide +kernel
  have calm : inMemory.Always 0 (Calm 0)
      [.changeText (.whole movingText), .update "#0" []] :=
    ⟨calm_movingText, calm_of_silent silent, trivial⟩
  have mirrored : inMemory.Always 0 (MirrorsAfter "flow" 0)
      [.changeText (.whole movingText), .update "#0" []] :=
    mirrors "flow" _ _ _ _ 0 (fun _ member => absurd member List.not_mem_nil) rfl
      (Store.clear_memory _ _) (by simp [Command.isEdit]) calm
  exact not_mirrors_rewritten (mirrored.2.1 applied)

end Session

end SourceCanvas
