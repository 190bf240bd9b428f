import SourceCanvas.Proofs.LedgerLaws

/-!
# Saving

What saving a graph does to a recorded ledger. Each of its calls keeps the ledger recorded and
loses nothing that belongs to the graph (`Ledger.Advances`). Together they leave the ledger with
the nodes and edges of the graph and no others (`Ledger.saves_spec`).
-/

namespace SourceCanvas

namespace Ledger

variable {flow : String} {graph : Graph} {ledger ledger' ledger'' : Ledger} {id record : String}

/-! ## Forgetting -/

/-- A ledger that knows and holds no more than another one. What it still has a snapshot of, it still
knows and holds. -/
structure Shrinks (ledger ledger' : Ledger) : Prop where
  drawn : ledger'.drawn = ledger.drawn
  tidy : ledger'.store.Tidy
  nodesNamed : ledger'.nodeRecords.names.Nodup
  edgesNamed : ledger'.edgeRecords.names.Nodup
  nodeRecords : ∀ id record, ledger'.nodeRecords.get? id = some record →
    ledger.nodeRecords.get? id = some record
  edgeRecords : ∀ id record, ledger'.edgeRecords.get? id = some record →
    ledger.edgeRecords.get? id = some record
  nodes : ∀ record entry, ledger'.store.HasNode record entry → ledger.store.HasNode record entry
  edges : ∀ record entry, ledger'.store.HasEdge record entry → ledger.store.HasEdge record entry
  edgesKnown : ∀ id record entry, ledger.edgeRecords.get? id = some record →
    ledger'.store.HasEdge record entry → ledger'.edgeRecords.get? id = some record
  nodesShown : ∀ id snapshot, ledger'.nodeSnapshots.get? id = some snapshot →
    ledger.nodeSnapshots.get? id = some snapshot ∧
      ∀ record, ledger.nodeRecords.get? id = some record →
        ledger'.nodeRecords.get? id = some record ∧
          ∀ entry, ledger.store.HasNode record entry → ledger'.store.HasNode record entry
  edgesSeen : ∀ id snapshot, ledger'.edgeSnapshots.get? id = some snapshot →
    ledger.edgeSnapshots.get? id = some snapshot ∧
      ∀ record, ledger.edgeRecords.get? id = some record →
        ledger'.edgeRecords.get? id = some record

theorem Recorded.shrink (recorded : ledger.Recorded flow) (shrinks : ledger.Shrinks ledger') :
    ledger'.Recorded flow where
  tidy := shrinks.tidy
  past := by
    intro count later entry entry'
    rw [shrinks.drawn] at later
    obtain ⟨node, edge⟩ := recorded.past count later entry entry'
    exact ⟨fun has => node (shrinks.nodes _ _ has), fun has => edge (shrinks.edges _ _ has)⟩
  nodesNamed := shrinks.nodesNamed
  edgesNamed := shrinks.edgesNamed
  nodesApart := fun _ _ _ found found' =>
    recorded.nodesApart _ _ _ (shrinks.nodeRecords _ _ found) (shrinks.nodeRecords _ _ found')
  edgesApart := fun _ _ _ found found' =>
    recorded.edgesApart _ _ _ (shrinks.edgeRecords _ _ found) (shrinks.edgeRecords _ _ found')
  nodesDrawn := by
    intro id record found
    rw [Drawn, shrinks.drawn]
    exact recorded.nodesDrawn id record (shrinks.nodeRecords _ _ found)
  edgesDrawn := by
    intro id record found
    rw [Drawn, shrinks.drawn]
    exact recorded.edgesDrawn id record (shrinks.edgeRecords _ _ found)
  nodesFlow := fun _ _ _ found has =>
    recorded.nodesFlow _ _ _ (shrinks.nodeRecords _ _ found) (shrinks.nodes _ _ has)
  edgesFlow := fun _ _ _ found has =>
    recorded.edgesFlow _ _ _ (shrinks.edgeRecords _ _ found) (shrinks.edges _ _ has)
  edgesKnown := by
    intro record entry has inFlow
    obtain ⟨id, found⟩ := recorded.edgesKnown record entry (shrinks.edges _ _ has) inFlow
    exact ⟨id, shrinks.edgesKnown id record entry found has⟩
  nodesShown := by
    intro id snapshot seen
    obtain ⟨seen, keeps⟩ := shrinks.nodesShown id snapshot seen
    obtain ⟨record, node, found, rfl, shown, has⟩ := recorded.nodesShown id snapshot seen
    obtain ⟨found', keeps⟩ := keeps record found
    exact ⟨record, node, found', rfl, shown, keeps _ has⟩
  edgesSeen := by
    intro id snapshot seen
    obtain ⟨seen, keeps⟩ := shrinks.edgesSeen id snapshot seen
    obtain ⟨record, found⟩ := recorded.edgesSeen id snapshot seen
    exact ⟨record, keeps record found⟩

/-! ## Advancing -/

/-- An edge of the graph looks as it did when it was last written. -/
def Matches (ledger : Ledger) (edge : Edge) : Prop :=
  ledger.edgeSnapshots.get? edge.id = some edge.snapshot

/-- A node of the graph looks as it did when it was last written. -/
def Seen (ledger : Ledger) (node : CanvasNode) : Prop :=
  ∃ snapshot, ledger.nodeSnapshots.get? node.id = some snapshot ∧
    (snapshot = node.snapshot ∨ snapshot.same node.snapshot = true)

/-- An edge is stored between the records of nodes of a graph. -/
def Between (graph : Graph) (ledger : Ledger) (entry : EdgeEntry) : Prop :=
  ∃ source ∈ graph.ids, ∃ target ∈ graph.ids, ∃ from_ into,
    ledger.nodeRecords.get? source = some from_ ∧ ledger.nodeRecords.get? target = some into ∧
      entry.source = some from_ ∧ entry.target = some into

/-- A ledger loses nothing that belongs to a graph on the way to another one, and gains nothing that
does not. -/
structure Advances (flow : String) (graph : Graph) (ledger ledger' : Ledger) : Prop where
  drawn : ledger.drawn ≤ ledger'.drawn
  /-- nodes of the graph keep their records -/
  keeps : ∀ id ∈ graph.ids, ∀ record, ledger.nodeRecords.get? id = some record →
    ledger'.nodeRecords.get? id = some record
  /-- a new record of a node is fresh, and belongs to a node of the graph -/
  origin : ∀ id record, ledger'.nodeRecords.get? id = some record →
    ledger.nodeRecords.get? id = some record ∨ id ∈ graph.ids ∧ ¬ledger.Drawn record
  /-- a new record of an edge belongs to an edge of the graph -/
  edgeOrigin : ∀ id record, ledger'.edgeRecords.get? id = some record →
    ledger.edgeRecords.get? id = some record ∨ ∃ edge ∈ graph.edges, edge.id = id
  /-- a node that looks the same still does -/
  seen : ∀ node ∈ graph.nodes, ledger.Seen node → ledger'.Seen node
  /-- an edge that looks the same keeps its record and its snapshot -/
  still : ∀ edge ∈ graph.edges, ledger.Matches edge → ledger'.Matches edge ∧
    ledger'.edgeRecords.get? edge.id = ledger.edgeRecords.get? edge.id
  /-- an edge that comes to look the same is stored the way it is -/
  looked : ∀ edge ∈ graph.edges, ledger'.Matches edge →
    ledger.Matches edge ∨ ledger'.HoldsEdge flow edge
  /-- an edge that looks the same is not written -/
  unwritten : ∀ edge ∈ graph.edges, ledger.Matches edge → ∀ record entry,
    ledger.edgeRecords.get? edge.id = some record → ledger'.store.HasEdge record entry →
      ledger.store.HasEdge record entry
  /-- and not lost, if it is stored between nodes of the graph -/
  stays : ∀ edge ∈ graph.edges, ledger.Matches edge → ∀ record entry,
    ledger.edgeRecords.get? edge.id = some record → ledger.store.HasEdge record entry →
      Between graph ledger entry → ledger'.store.HasEdge record entry
  /-- what no node is known to be stored under stays -/
  orphans : ∀ record entry, ledger.Drawn record →
    (∀ id, ledger.nodeRecords.get? id ≠ some record) → ledger.store.HasNode record entry →
      ledger'.store.HasNode record entry

theorem Drawn.mono (drawn : ledger.Drawn record) (later : ledger.drawn ≤ ledger'.drawn) :
    ledger'.Drawn record := by
  obtain ⟨count, small, same⟩ := drawn
  exact ⟨count, by omega, same⟩

namespace Advances

theorem refl (flow : String) (graph : Graph) (ledger : Ledger) :
    Advances flow graph ledger ledger where
  drawn := Nat.le_refl _
  keeps := fun _ _ _ found => found
  origin := fun _ _ found => .inl found
  edgeOrigin := fun _ _ found => .inl found
  seen := fun _ _ seen => seen
  still := fun _ _ looks => ⟨looks, rfl⟩
  looked := fun _ _ looks => .inl looks
  unwritten := fun _ _ _ _ _ _ has => has
  stays := fun _ _ _ _ _ _ has _ => has
  orphans := fun _ _ _ _ has => has

theorem between (advances : Advances flow graph ledger ledger') {entry : EdgeEntry}
    (between : Between graph ledger entry) : Between graph ledger' entry := by
  obtain ⟨source, source_mem, target, target_mem, from_, into, found, found', same, same'⟩ := between
  exact ⟨source, source_mem, target, target_mem, from_, into,
    advances.keeps source source_mem from_ found, advances.keeps target target_mem into found',
    same, same'⟩

/-- An edge that looks the same stays stored the way it is. -/
theorem holdsEdge (advances : Advances flow graph ledger ledger') (sound : graph.Sound) {edge : Edge}
    (member : edge ∈ graph.edges) (looks : ledger.Matches edge)
    (holds : ledger.HoldsEdge flow edge) : ledger'.HoldsEdge flow edge := by
  obtain ⟨record, source, target, found, from_, into, has⟩ := holds
  obtain ⟨source_mem, target_mem⟩ := sound.live edge member
  obtain ⟨-, same⟩ := advances.still edge member looks
  refine ⟨record, source, target, same.trans found, advances.keeps _ source_mem _ from_,
    advances.keeps _ target_mem _ into, ?_⟩
  exact advances.stays edge member looks record _ found has
    ⟨_, source_mem, _, target_mem, source, target, from_, into, rfl, rfl⟩

theorem trans (sound : graph.Sound) (first : Advances flow graph ledger ledger')
    (second : Advances flow graph ledger' ledger'') : Advances flow graph ledger ledger'' where
  drawn := Nat.le_trans first.drawn second.drawn
  keeps := fun id member record found =>
    second.keeps id member record (first.keeps id member record found)
  origin := by
    intro id record found
    rcases second.origin id record found with found | ⟨member, undrawn⟩
    · exact first.origin id record found
    · exact .inr ⟨member, fun drawn => undrawn (drawn.mono first.drawn)⟩
  edgeOrigin := by
    intro id record found
    rcases second.edgeOrigin id record found with found | known
    · exact first.edgeOrigin id record found
    · exact .inr known
  seen := fun node member seen => second.seen node member (first.seen node member seen)
  still := by
    intro edge member looks
    obtain ⟨looks', same⟩ := first.still edge member looks
    obtain ⟨looks'', same'⟩ := second.still edge member looks'
    exact ⟨looks'', same'.trans same⟩
  looked := by
    intro edge member looks
    rcases second.looked edge member looks with looks' | holds
    · rcases first.looked edge member looks' with looks'' | holds
      · exact .inl looks''
      · exact .inr (second.holdsEdge sound member looks' holds)
    · exact .inr holds
  unwritten := by
    intro edge member looks record entry found has
    obtain ⟨looks', same⟩ := first.still edge member looks
    exact first.unwritten edge member looks record entry found
      (second.unwritten edge member looks' record entry (same.trans found) has)
  stays := by
    intro edge member looks record entry found has between
    obtain ⟨looks', same⟩ := first.still edge member looks
    exact second.stays edge member looks' record entry (same.trans found)
      (first.stays edge member looks record entry found has between) (first.between between)
  orphans := by
    intro record entry drawn unknown has
    refine second.orphans record entry (drawn.mono first.drawn) ?_
      (first.orphans record entry drawn unknown has)
    intro id found
    rcases first.origin id record found with found | ⟨-, undrawn⟩
    · exact unknown id found
    · exact undrawn drawn

end Advances

/-! ## Removing what is gone -/

/-- A ledger stays recorded and advances. Where all nodes of the flow were known, they still are. -/
structure Proceeds (flow : String) (graph : Graph) (ledger ledger' : Ledger) : Prop where
  recorded : ledger'.Recorded flow
  advances : Advances flow graph ledger ledger'
  owns : ledger.Owns flow → ledger'.Owns flow

theorem Proceeds.refl (recorded : ledger.Recorded flow) : Proceeds flow graph ledger ledger :=
  ⟨recorded, .refl flow graph ledger, fun owns => owns⟩

theorem Proceeds.trans (sound : graph.Sound) (first : Proceeds flow graph ledger ledger')
    (second : Proceeds flow graph ledger' ledger'') : Proceeds flow graph ledger ledger'' where
  recorded := second.recorded
  advances := first.advances.trans sound second.advances
  owns := fun owns => second.owns (first.owns owns)

theorem hasLiveEdge_iff (sound : graph.Sound) :
    Session.hasLiveEdge graph id = true ↔ ∃ edge ∈ graph.edges, edge.id = id := by
  rw [Session.hasLiveEdge, Option.any_eq_true]
  constructor
  · rintro ⟨edge, found, -⟩
    exact ⟨edge, List.mem_reverse.mp (List.mem_of_find?_eq_some found),
      by simpa using List.find?_some found⟩
  · rintro ⟨edge, member, rfl⟩
    have some : (graph.edges.reverse.find? (·.id == edge.id)).isSome = true :=
      List.find?_isSome.mpr ⟨edge, List.mem_reverse.mpr member, beq_self_eq_true _⟩
    obtain ⟨found, same⟩ := Option.isSome_iff_exists.mp some
    have live := sound.live found (List.mem_reverse.mp (List.mem_of_find?_eq_some same))
    refine ⟨found, same, ?_⟩
    rw [Bool.and_eq_true, Graph.hasNode_iff, Graph.hasNode_iff]
    exact live

theorem proceeds_removeEdge (sound : graph.Sound) (recorded : ledger.Recorded flow)
    {reply : StoreReply} {store : Store} (gone : Session.hasLiveEdge graph id = false)
    (answered : ledger.store.perform ledger.fresh (.removeEdge (ledger.edgeRecords.get? id)) =
      (.ok reply, store)) :
    Proceeds flow graph ledger { ledger with
      store
      edgeRecords := ledger.edgeRecords.erase id
      edgeSnapshots := ledger.edgeSnapshots.erase id } := by
  obtain ⟨tidy, nodes, edges⟩ := Store.removeEdge_law recorded.tidy answered
  have others {edge : Edge} (member : edge ∈ graph.edges) : edge.id ≠ id := by
    rintro rfl
    rw [(hasLiveEdge_iff sound).mpr ⟨edge, member, rfl⟩] at gone
    cases gone
  refine ⟨recorded.shrink ?_, ?_, ?_⟩
  · exact {
      drawn := rfl
      tidy := tidy
      nodesNamed := recorded.nodesNamed
      edgesNamed := Catalog.nodup_names_filter _ recorded.edgesNamed
      nodeRecords := fun _ _ found => found
      edgeRecords := fun _ _ found => (Catalog.get?_of_erase found).2
      nodes := fun record entry has => (nodes record entry).mp has
      edges := fun record entry has => ((edges record entry).mp has).1
      edgesKnown := by
        intro other record entry found has
        refine (Catalog.get?_erase_ne _ ?_).trans found
        rintro rfl
        exact ((edges record entry).mp has).2 found.symm
      nodesShown := fun _ _ seen => ⟨seen, fun record found =>
        ⟨found, fun entry has => (nodes record entry).mpr has⟩⟩
      edgesSeen := by
        intro other snapshot seen
        obtain ⟨different, seen⟩ := Catalog.get?_of_erase seen
        exact ⟨seen, fun record found => (Catalog.get?_erase_ne _ different).trans found⟩ }
  · exact {
      drawn := Nat.le_refl _
      keeps := fun _ _ _ found => found
      origin := fun _ _ found => .inl found
      edgeOrigin := fun _ _ found => .inl (Catalog.get?_of_erase found).2
      seen := fun _ _ seen => seen
      still := fun edge member looks =>
        ⟨(Catalog.get?_erase_ne _ (others member)).trans looks, Catalog.get?_erase_ne _ (others member)⟩
      looked := fun edge member looks => .inl (Catalog.get?_of_erase looks).2
      unwritten := fun _ _ _ record entry _ has => ((edges record entry).mp has).1
      stays := by
        intro edge member looks record entry found has between
        refine (edges record entry).mpr ⟨has, fun same => others member ?_⟩
        exact recorded.edgesApart _ _ record found same.symm
      orphans := fun record entry _ _ has => (nodes record entry).mpr has }
  · exact fun owns record entry has => owns record entry ((nodes record entry).mp has)

theorem proceeds_removeNode (recorded : ledger.Recorded flow)
    {reply : StoreReply} {store : Store} (gone : id ∉ graph.ids)
    (answered : ledger.store.perform ledger.fresh (.removeNode (ledger.nodeRecords.get? id)) =
      (.ok reply, store)) :
    Proceeds flow graph ledger { ledger with
      store
      nodeRecords := ledger.nodeRecords.erase id
      nodeSnapshots := ledger.nodeSnapshots.erase id } := by
  obtain ⟨tidy, nodes, edges, stays⟩ := Store.removeNode_law recorded.tidy answered
  have others {other : String} (member : other ∈ graph.ids) : other ≠ id := by
    rintro rfl
    exact gone member
  have apart {other record : String} (different : other ≠ id)
      (found : ledger.nodeRecords.get? other = some record) :
      some record ≠ ledger.nodeRecords.get? id := by
    intro same
    exact different (recorded.nodesApart _ _ record found same.symm)
  refine ⟨recorded.shrink ?_, ?_, ?_⟩
  · exact {
      drawn := rfl
      tidy := tidy
      nodesNamed := Catalog.nodup_names_filter _ recorded.nodesNamed
      edgesNamed := recorded.edgesNamed
      nodeRecords := fun _ _ found => (Catalog.get?_of_erase found).2
      edgeRecords := fun _ _ found => found
      nodes := fun record entry has => ((nodes record entry).mp has).1
      edges := edges
      edgesKnown := fun _ _ _ found _ => found
      nodesShown := by
        intro other snapshot seen
        obtain ⟨different, seen⟩ := Catalog.get?_of_erase seen
        exact ⟨seen, fun record found => ⟨(Catalog.get?_erase_ne _ different).trans found,
          fun entry has => (nodes record entry).mpr ⟨has, apart different found⟩⟩⟩
      edgesSeen := fun _ _ seen => ⟨seen, fun _ found => found⟩ }
  · exact {
      drawn := Nat.le_refl _
      keeps := fun _ member _ found => (Catalog.get?_erase_ne _ (others member)).trans found
      origin := fun _ _ found => .inl (Catalog.get?_of_erase found).2
      edgeOrigin := fun _ _ found => .inl found
      seen := by
        rintro node member ⟨snapshot, found, same⟩
        have different := others (List.mem_map_of_mem member)
        exact ⟨snapshot, (Catalog.get?_erase_ne _ different).trans found, same⟩
      still := fun _ _ looks => ⟨looks, rfl⟩
      looked := fun _ _ looks => .inl looks
      unwritten := fun _ _ _ record entry _ has => edges record entry has
      stays := by
        intro edge member looks record entry found has between
        obtain ⟨source, source_mem, target, target_mem, from_, into, known, known', same, same'⟩ :=
          between
        refine stays record entry has ?_ ?_
        · rw [same]
          exact apart (others source_mem) known
        · rw [same']
          exact apart (others target_mem) known'
      orphans := by
        intro record entry drawn unknown has
        exact (nodes record entry).mpr ⟨has, fun same => unknown id same.symm⟩ }
  · intro owns record entry has inFlow
    obtain ⟨has, different⟩ := (nodes record entry).mp has
    obtain ⟨other, found⟩ := owns record entry has inFlow
    refine ⟨other, (Catalog.get?_erase_ne _ ?_).trans found⟩
    rintro rfl
    exact different found.symm

/-! ## Writing -/

/-- A node is stored the way it is. -/
def HoldsNode (ledger : Ledger) (node : CanvasNode) : Prop :=
  ∃ record entry, ledger.nodeRecords.get? node.id = some record ∧
    ledger.store.HasNode record entry ∧ localId? entry.data = some node.id ∧ entry.Shows node

/-- A node that looks as it did when it was last written is stored the way it is. -/
theorem Recorded.holdsNode (recorded : ledger.Recorded flow) {node : CanvasNode}
    (seen : ledger.Seen node) : ledger.HoldsNode node := by
  obtain ⟨snapshot, found, same⟩ := seen
  obtain ⟨record, node', known, ids, rfl, has⟩ := recorded.nodesShown node.id snapshot found
  refine ⟨record, _, known, has, ?_, ?_⟩
  · rw [localId_entry, ids]
  · rcases same with equal | same
    · exact shows_of_eq _ equal
    · exact shows_of_same _ same

theorem proceeds_upsertNode (sound : graph.Sound) (recorded : ledger.Recorded flow)
    {node : CanvasNode} (member : node ∈ graph.nodes) {target : String} {drawn : Nat} {store : Store}
    (chosen : ledger.Target (ledger.nodeRecords.get? node.id) target drawn)
    (tidy : store.Tidy)
    (nodes : ∀ record entry, store.HasNode record entry ↔
      record = target ∧ entry = node.entry (some flow) ∨
        record ≠ target ∧ ledger.store.HasNode record entry)
    (edges : ∀ record entry, store.HasEdge record entry ↔ ledger.store.HasEdge record entry) :
    Proceeds flow graph ledger { ledger with
      store, drawn
      nodeRecords := Catalog.insert node.id target ledger.nodeRecords
      nodeSnapshots := Catalog.insert node.id node.snapshot ledger.nodeSnapshots } := by
  have targetDrawn := chosen.drawn fun record found => recorded.nodesDrawn node.id record found
  have apart {other record : String} (different : other ≠ node.id)
      (found : ledger.nodeRecords.get? other = some record) : record ≠ target :=
    chosen.ne_of_other recorded.nodesApart recorded.nodesDrawn different found
  refine ⟨?_, ?_, ?_⟩
  · exact {
      tidy := tidy
      past := by
        intro count later entry entry'
        have later : drawn < count := later
        obtain ⟨node', edge'⟩ := recorded.past count (Nat.lt_of_le_of_lt chosen.le later) entry entry'
        refine ⟨fun has => ?_, fun has => edge' ((edges _ _).mp has)⟩
        rcases (nodes _ _).mp has with ⟨same, -⟩ | ⟨-, has⟩
        · obtain ⟨number, small, same'⟩ := targetDrawn
          have := Supply.idOf_inj (same.trans same')
          omega
        · exact node' has
      nodesNamed := Catalog.nodup_names_insert recorded.nodesNamed
      edgesNamed := recorded.edgesNamed
      nodesApart := by
        intro one other record found found'
        rcases Catalog.get?_of_insert found with ⟨rfl, rfl⟩ | ⟨different, known⟩
        · rcases Catalog.get?_of_insert found' with ⟨rfl, -⟩ | ⟨different', known'⟩
          · rfl
          · exact absurd rfl (apart different' known')
        · rcases Catalog.get?_of_insert found' with ⟨rfl, rfl⟩ | ⟨-, known'⟩
          · exact absurd rfl (apart different known)
          · exact recorded.nodesApart _ _ record known known'
      edgesApart := recorded.edgesApart
      nodesDrawn := by
        intro other record found
        rcases Catalog.get?_of_insert found with ⟨rfl, rfl⟩ | ⟨-, found⟩
        · exact targetDrawn
        · exact (recorded.nodesDrawn other record found).mono chosen.le
      edgesDrawn := fun other record found =>
        (recorded.edgesDrawn other record found).mono chosen.le
      nodesFlow := by
        intro other record entry found has
        rcases (nodes record entry).mp has with ⟨-, rfl⟩ | ⟨untouched, has⟩
        · rfl
        · rcases Catalog.get?_of_insert found with ⟨-, rfl⟩ | ⟨-, found⟩
          · exact absurd rfl untouched
          · exact recorded.nodesFlow other record entry found has
      edgesFlow := fun other record entry found has =>
        recorded.edgesFlow other record entry found ((edges _ _).mp has)
      edgesKnown := fun record entry has inFlow =>
        recorded.edgesKnown record entry ((edges _ _).mp has) inFlow
      nodesShown := by
        intro other snapshot seen
        rw [Catalog.get?_insert] at seen
        split at seen
        · next same =>
          cases seen
          subst same
          exact ⟨target, node, Catalog.get?_insert_self _ _ _, rfl, rfl,
            (nodes _ _).mpr (.inl ⟨rfl, rfl⟩)⟩
        · next different =>
          obtain ⟨record, node', found, ids, shown, has⟩ := recorded.nodesShown other snapshot seen
          exact ⟨record, node', (Catalog.get?_insert_ne different _ _).trans found, ids, shown,
            (nodes _ _).mpr (.inr ⟨apart different found, has⟩)⟩
      edgesSeen := recorded.edgesSeen }
  · exact {
      drawn := chosen.le
      keeps := by
        intro other _ record found
        by_cases same : other = node.id
        · subst same
          rw [found] at chosen
          cases chosen
          exact Catalog.get?_insert_self _ _ _
        · exact (Catalog.get?_insert_ne same _ _).trans found
      origin := by
        intro other record found
        rcases Catalog.get?_of_insert found with ⟨rfl, rfl⟩ | ⟨-, found⟩
        · cases own : ledger.nodeRecords.get? node.id with
          | none =>
            rw [own] at chosen
            cases chosen
            exact .inr ⟨List.mem_map_of_mem member, not_drawn_fresh⟩
          | some known =>
            rw [own] at chosen
            cases chosen
            exact .inl rfl
        · exact .inl found
      edgeOrigin := fun _ _ found => .inl found
      seen := by
        rintro other inside ⟨snapshot, found, looks⟩
        by_cases same : other.id = node.id
        · rw [List.inj_on_of_nodup_map sound.apart inside member same]
          exact ⟨node.snapshot, Catalog.get?_insert_self _ _ _, .inl rfl⟩
        · exact ⟨snapshot, (Catalog.get?_insert_ne same _ _).trans found, looks⟩
      still := fun _ _ looks => ⟨looks, rfl⟩
      looked := fun _ _ looks => .inl looks
      unwritten := fun _ _ _ record entry _ has => (edges record entry).mp has
      stays := fun _ _ _ record entry _ has _ => (edges record entry).mpr has
      orphans := by
        intro record entry drawn unknown has
        exact (nodes record entry).mpr
          (.inr ⟨chosen.ne_of_drawn drawn (unknown node.id), has⟩) }
  · intro owns record entry has inFlow
    rcases (nodes record entry).mp has with ⟨rfl, -⟩ | ⟨untouched, has⟩
    · exact ⟨node.id, Catalog.get?_insert_self _ _ _⟩
    · obtain ⟨other, found⟩ := owns record entry has inFlow
      refine ⟨other, (Catalog.get?_insert_ne ?_ _ _).trans found⟩
      rintro rfl
      rw [found] at chosen
      cases chosen
      exact untouched rfl

/-- Writing an edge between the records of its ends. -/
theorem proceeds_upsertEdge (sound : graph.Sound) (recorded : ledger.Recorded flow) {edge : Edge}
    (member : edge ∈ graph.edges) {source into : String}
    (sourceKnown : ledger.nodeRecords.get? edge.source = some source)
    (intoKnown : ledger.nodeRecords.get? edge.target = some into)
    (different : ¬ledger.Matches edge) {target : String} {drawn : Nat} {store : Store}
    (chosen : ledger.Target (ledger.edgeRecords.get? edge.id) target drawn)
    (tidy : store.Tidy)
    (nodes : ∀ record entry, store.HasNode record entry ↔ ledger.store.HasNode record entry)
    (edges : ∀ record entry, store.HasEdge record entry ↔
      record = target ∧ entry = edge.entry (some flow) source into ∨
        record ≠ target ∧ ledger.store.HasEdge record entry) :
    Proceeds flow graph ledger { ledger with
      store, drawn
      edgeRecords := Catalog.insert edge.id target ledger.edgeRecords
      edgeSnapshots := Catalog.insert edge.id edge.snapshot ledger.edgeSnapshots } := by
  have targetDrawn := chosen.drawn fun record found => recorded.edgesDrawn edge.id record found
  have apart {other record : String} (different : other ≠ edge.id)
      (found : ledger.edgeRecords.get? other = some record) : record ≠ target :=
    chosen.ne_of_other recorded.edgesApart recorded.edgesDrawn different found
  -- An edge of the graph that looks the same is another one.
  have others {other : Edge} (inside : other ∈ graph.edges) (looks : ledger.Matches other) :
      other.id ≠ edge.id := by
    intro same
    rw [List.inj_on_of_nodup_map sound.edgesApart inside member same] at looks
    exact different looks
  refine ⟨?_, ?_, ?_⟩
  · exact {
      tidy := tidy
      past := by
        intro count later entry entry'
        have later : drawn < count := later
        obtain ⟨node', edge'⟩ := recorded.past count (Nat.lt_of_le_of_lt chosen.le later) entry entry'
        refine ⟨fun has => node' ((nodes _ _).mp has), fun has => ?_⟩
        rcases (edges _ _).mp has with ⟨same, -⟩ | ⟨-, has⟩
        · obtain ⟨number, small, same'⟩ := targetDrawn
          have := Supply.idOf_inj (same.trans same')
          omega
        · exact edge' has
      nodesNamed := recorded.nodesNamed
      edgesNamed := Catalog.nodup_names_insert recorded.edgesNamed
      nodesApart := recorded.nodesApart
      edgesApart := by
        intro one other record found found'
        rcases Catalog.get?_of_insert found with ⟨rfl, rfl⟩ | ⟨different, known⟩
        · rcases Catalog.get?_of_insert found' with ⟨rfl, -⟩ | ⟨different', known'⟩
          · rfl
          · exact absurd rfl (apart different' known')
        · rcases Catalog.get?_of_insert found' with ⟨rfl, rfl⟩ | ⟨-, known'⟩
          · exact absurd rfl (apart different known)
          · exact recorded.edgesApart _ _ record known known'
      nodesDrawn := fun other record found =>
        (recorded.nodesDrawn other record found).mono chosen.le
      edgesDrawn := by
        intro other record found
        rcases Catalog.get?_of_insert found with ⟨rfl, rfl⟩ | ⟨-, found⟩
        · exact targetDrawn
        · exact (recorded.edgesDrawn other record found).mono chosen.le
      nodesFlow := fun other record entry found has =>
        recorded.nodesFlow other record entry found ((nodes _ _).mp has)
      edgesFlow := by
        intro other record entry found has
        rcases Catalog.get?_of_insert found with ⟨rfl, rfl⟩ | ⟨different, found⟩
        · rcases (edges _ _).mp has with ⟨-, rfl⟩ | ⟨untouched, -⟩
          · exact ⟨rfl, localId_edge _ _ _ _⟩
          · exact absurd rfl untouched
        · rcases (edges _ _).mp has with ⟨same, -⟩ | ⟨-, has⟩
          · exact absurd same (apart different found)
          · exact recorded.edgesFlow other record entry found has
      edgesKnown := by
        intro record entry has inFlow
        rcases (edges _ _).mp has with ⟨rfl, -⟩ | ⟨untouched, has⟩
        · exact ⟨edge.id, Catalog.get?_insert_self _ _ _⟩
        · obtain ⟨other, found⟩ := recorded.edgesKnown record entry has inFlow
          refine ⟨other, (Catalog.get?_insert_ne ?_ _ _).trans found⟩
          rintro rfl
          rw [found] at chosen
          cases chosen
          exact untouched rfl
      nodesShown := by
        intro other snapshot seen
        obtain ⟨record, node, found, ids, shown, has⟩ := recorded.nodesShown other snapshot seen
        exact ⟨record, node, found, ids, shown, (nodes _ _).mpr has⟩
      edgesSeen := by
        intro other snapshot seen
        by_cases same : other = edge.id
        · subst same
          exact ⟨target, Catalog.get?_insert_self _ _ _⟩
        · have seen : ledger.edgeSnapshots.get? other = some snapshot :=
            (Catalog.get?_insert_ne same _ _).symm.trans seen
          obtain ⟨record, found⟩ := recorded.edgesSeen other snapshot seen
          exact ⟨record, (Catalog.get?_insert_ne same _ _).trans found⟩ }
  · exact {
      drawn := chosen.le
      keeps := fun _ _ _ found => found
      origin := fun _ _ found => .inl found
      edgeOrigin := by
        intro other record found
        rcases Catalog.get?_of_insert found with ⟨rfl, -⟩ | ⟨-, found⟩
        · exact .inr ⟨edge, member, rfl⟩
        · exact .inl found
      seen := fun _ _ seen => seen
      still := fun other inside looks =>
        ⟨(Catalog.get?_insert_ne (others inside looks) _ _).trans looks,
          Catalog.get?_insert_ne (others inside looks) _ _⟩
      looked := by
        intro other inside looks
        by_cases same : other.id = edge.id
        · rw [List.inj_on_of_nodup_map sound.edgesApart inside member same]
          exact .inr ⟨target, source, into, Catalog.get?_insert_self _ _ _, sourceKnown, intoKnown,
            (edges _ _).mpr (.inl ⟨rfl, rfl⟩)⟩
        · exact .inl ((Catalog.get?_insert_ne same _ _).symm.trans looks)
      unwritten := by
        intro other inside looks record entry found has
        rcases (edges _ _).mp has with ⟨same, -⟩ | ⟨-, has⟩
        · exact absurd same (apart (others inside looks) found)
        · exact has
      stays := fun other inside looks record entry found has _ =>
        (edges _ _).mpr (.inr ⟨apart (others inside looks) found, has⟩)
      orphans := fun record entry _ _ has => (nodes _ _).mpr has }
  · exact fun owns record entry has => owns record entry ((nodes _ _).mp has)

/-! ## Acts of saving -/

/-- A node is written under its own record, which is of the flow, or under one that nothing has. -/
theorem Recorded.sameFlow_node (recorded : ledger.Recorded flow) (id : String) (entry : NodeEntry)
    (has : ledger.store.HasNode (Store.target ledger.fresh (ledger.nodeRecords.get? id)) entry) :
    entry.flow = some flow := by
  have chosen := target_of_drawn fun record found => recorded.nodesDrawn id record found
  rcases chosen.own_or_fresh with own | fresh
  · exact recorded.nodesFlow id _ entry own has
  · rw [fresh] at has
    have unused := recorded.past _ (Nat.lt_succ_self _) entry ⟨none, none, none, none, none, .null⟩
    exact absurd has unused.1

theorem Recorded.sameFlow_edge (recorded : ledger.Recorded flow) (id : String) (entry : EdgeEntry)
    (has : ledger.store.HasEdge (Store.target ledger.fresh (ledger.edgeRecords.get? id)) entry) :
    entry.flow = some flow := by
  have chosen := target_of_drawn fun record found => recorded.edgesDrawn id record found
  rcases chosen.own_or_fresh with own | fresh
  · exact (recorded.edgesFlow id _ entry own has).1
  · rw [fresh] at has
    have unused := recorded.past _ (Nat.lt_succ_self _) ⟨none, none, .null, none, none⟩ entry
    exact absurd has unused.2

/-- A session with a graph that is saved in a flow. -/
structure Saving (flow : String) (graph : Graph) (session : Session) (ledger : Ledger) : Prop where
  graph : session.graph = graph
  flow : session.setup.flow = some flow
  kept : session.ledger? = some ledger

theorem Saving.of_same {session session' : Session} (saving : Saving flow graph session ledger)
    (same : SameCanvas session session') (kept : session'.ledger? = some ledger') :
    Saving flow graph session' ledger' where
  graph := same.graph.trans saving.graph
  flow := same.setup ▸ saving.flow
  kept := kept

section Acts

variable {session session' : Session}

theorem dropEdge_proceeds (sound : graph.Sound) (recorded : ledger.Recorded flow)
    (saving : Saving flow graph session ledger)
    (done : (Session.dropEdge id).on session = (.ok (), session')) :
    ∃ ledger', session'.ledger? = some ledger' ∧ Proceeds flow graph ledger ledger' ∧
      (∀ record, ledger'.edgeRecords.get? id = some record → ∃ edge ∈ graph.edges, edge.id = id) := by
  rcases Session.dropEdge_ledger saving.kept done with ⟨live, kept⟩ | ⟨gone, reply, store, answered, kept⟩
  · rw [saving.graph] at live
    exact ⟨ledger, kept, .refl recorded, fun _ _ => (hasLiveEdge_iff sound).mp live⟩
  · rw [saving.graph] at gone
    refine ⟨_, kept, proceeds_removeEdge sound recorded gone answered, fun record found => ?_⟩
    exact absurd rfl (Catalog.get?_of_erase found).1

theorem dropNode_proceeds (recorded : ledger.Recorded flow)
    (saving : Saving flow graph session ledger)
    (done : (Session.dropNode id).on session = (.ok (), session')) :
    ∃ ledger', session'.ledger? = some ledger' ∧ Proceeds flow graph ledger ledger' ∧
      (∀ record, ledger'.nodeRecords.get? id = some record → id ∈ graph.ids) := by
  rcases Session.dropNode_ledger saving.kept done with ⟨there, kept⟩ | ⟨gone, reply, store, answered, kept⟩
  · rw [saving.graph] at there
    exact ⟨ledger, kept, .refl recorded, fun _ _ => Graph.hasNode_iff.mp there⟩
  · rw [saving.graph] at gone
    have gone : id ∉ graph.ids := by
      rw [← Graph.hasNode_iff, gone]
      exact Bool.false_ne_true
    refine ⟨_, kept, proceeds_removeNode recorded gone answered, fun record found => ?_⟩
    exact absurd rfl (Catalog.get?_of_erase found).1

theorem writeNode_proceeds (sound : graph.Sound) (recorded : ledger.Recorded flow)
    {node : CanvasNode} (member : node ∈ graph.nodes) (saving : Saving flow graph session ledger)
    (done : (Session.writeNode node).on session = (.ok (), session')) :
    ∃ ledger', session'.ledger? = some ledger' ∧ Proceeds flow graph ledger ledger' ∧
      ledger'.Seen node := by
  rcases Session.writeNode_ledger saving.kept done with ⟨same, kept⟩ | ⟨reply, store, answered, kept⟩
  · rw [Option.any_eq_true] at same
    obtain ⟨snapshot, found, same⟩ := same
    exact ⟨ledger, kept, .refl recorded, snapshot, found, .inr same⟩
  · rw [saving.flow] at answered
    obtain ⟨rfl, tidy, nodes, edges⟩ :=
      Store.upsertNode_law recorded.tidy (recorded.sameFlow_node node.id) answered
    have chosen := target_of_drawn fun record found => recorded.nodesDrawn node.id record found
    refine ⟨_, kept, proceeds_upsertNode sound recorded member chosen tidy nodes edges, ?_⟩
    exact ⟨node.snapshot, Catalog.get?_insert_self _ _ _, .inl rfl⟩

theorem writeEdge_proceeds (sound : graph.Sound) (recorded : ledger.Recorded flow) {edge : Edge}
    (member : edge ∈ graph.edges)
    (ends : ∀ id ∈ graph.ids, ∃ record, ledger.nodeRecords.get? id = some record)
    (saving : Saving flow graph session ledger)
    (done : (Session.writeEdge edge).on session = (.ok (), session')) :
    ∃ ledger', session'.ledger? = some ledger' ∧ Proceeds flow graph ledger ledger' ∧
      ledger'.Matches edge := by
  obtain ⟨sourceLives, targetLives⟩ := sound.live edge member
  obtain ⟨source, from_⟩ := ends _ sourceLives
  obtain ⟨target, into⟩ := ends _ targetLives
  rcases Session.writeEdge_ledger saving.kept from_ into done with
    ⟨same, kept⟩ | ⟨different, reply, store, answered, kept⟩
  · exact ⟨ledger, kept, .refl recorded, same⟩
  · rw [saving.flow] at answered
    obtain ⟨rfl, tidy, nodes, edges⟩ :=
      Store.upsertEdge_law recorded.tidy (recorded.sameFlow_edge edge.id) answered
    have chosen := target_of_drawn fun record found => recorded.edgesDrawn edge.id record found
    refine ⟨_, kept,
      proceeds_upsertEdge sound recorded member from_ into different chosen tidy nodes edges, ?_⟩
    exact Catalog.get?_insert_self _ _ _

/-- Doing an act for each element of a list. What the act has achieved for an element stays, since
the ledger only advances. -/
theorem forM_proceeds {α : Type} {each : α → Act Unit} (keeps : ∀ a, (each a).KeepsCanvas)
    (done : Ledger → α → Prop) (sound : graph.Sound) {list : List α}
    (step : ∀ a ∈ list, ∀ {session session' : Session} {between : Ledger},
      Saving flow graph session between → between.Recorded flow →
      Advances flow graph ledger between → (each a).on session = (.ok (), session') →
        ∃ ledger', session'.ledger? = some ledger' ∧ Proceeds flow graph between ledger' ∧
          done ledger' a)
    (stays : ∀ a ∈ list, ∀ {between ledger' : Ledger}, Advances flow graph between ledger' →
      done between a → done ledger' a)
    (recorded : ledger.Recorded flow) (saving : Saving flow graph session ledger)
    (ran : (list.forM each).on session = (.ok (), session')) :
    ∃ ledger', Saving flow graph session' ledger' ∧ Proceeds flow graph ledger ledger' ∧
      ∀ a ∈ list, done ledger' a := by
  induction list generalizing session ledger with
  | nil =>
    cases ran
    exact ⟨ledger, saving, .refl recorded, by simp⟩
  | cons a rest ih =>
    obtain ⟨⟨⟩, middle, first, second⟩ := Act.on_bind_ok ran
    have same := keeps a session
    rw [first] at same
    obtain ⟨between, kept, proceeds, achieved⟩ :=
      step a List.mem_cons_self saving recorded (.refl flow graph ledger) first
    obtain ⟨ledger', saving', proceeds', rest_done⟩ := ih
      (fun b member _ _ _ saving recorded advances =>
        step b (List.mem_cons_of_mem _ member) saving recorded
          (proceeds.advances.trans sound advances))
      (fun b member => stays b (List.mem_cons_of_mem _ member))
      proceeds.recorded (saving.of_same same kept) second
    refine ⟨ledger', saving', proceeds.trans sound proceeds', ?_⟩
    intro b member
    rcases List.mem_cons.mp member with rfl | member
    · exact stays b List.mem_cons_self proceeds'.advances achieved
    · exact rest_done b member

end Acts

/-- What a ledger is like once a graph is saved. -/
structure Saved (flow : String) (graph : Graph) (ledger ledger' : Ledger) : Prop
    extends Proceeds flow graph ledger ledger' where
  nodes : ∀ node ∈ graph.nodes, ledger'.HoldsNode node
  edges : ∀ edge ∈ graph.edges, ledger'.Matches edge
  nodesOnly : ∀ id record, ledger'.nodeRecords.get? id = some record → id ∈ graph.ids
  edgesOnly : ∀ id record, ledger'.edgeRecords.get? id = some record →
    ∃ edge ∈ graph.edges, edge.id = id

theorem saves_spec (sound : graph.Sound) (recorded : ledger.Recorded flow)
    (saves : ledger.Saves (some flow) graph ledger') : Saved flow graph ledger ledger' := by
  obtain ⟨before, after, graphBefore, flowBefore, kept, done, kept'⟩ := saves
  have saving : Saving flow graph before ledger := ⟨graphBefore, flowBefore, kept⟩
  unfold Session.writeDifferences at done
  rw [Act.on_get] at done
  obtain ⟨⟨⟩, afterEdges, droppedEdges, done⟩ := Act.on_bind_ok done
  rw [Act.on_get] at done
  obtain ⟨⟨⟩, afterNodes, droppedNodes, done⟩ := Act.on_bind_ok done
  rw [Act.on_get] at done
  obtain ⟨⟨⟩, afterWrites, wroteNodes, wroteEdges⟩ := Act.on_bind_ok done
  rw [Act.on_get] at wroteEdges
  obtain ⟨first, saving₁, proceeds₁, edgesGone⟩ := forM_proceeds Act.keepsCanvas_dropEdge
    (fun ledger id => ∀ record, ledger.edgeRecords.get? id = some record →
      ∃ edge ∈ graph.edges, edge.id = id) sound
    (fun id _ _ _ _ saving recorded _ done => dropEdge_proceeds sound recorded saving done)
    (fun id _ _ _ advances gone record found =>
      (advances.edgeOrigin id record found).elim (gone record) fun known => known)
    recorded saving droppedEdges
  obtain ⟨second, saving₂, proceeds₂, nodesGone⟩ := forM_proceeds Act.keepsCanvas_dropNode
    (fun ledger id => ∀ record, ledger.nodeRecords.get? id = some record → id ∈ graph.ids) sound
    (fun id _ _ _ _ saving recorded _ done => dropNode_proceeds recorded saving done)
    (fun id _ _ _ advances gone record found =>
      (advances.origin id record found).elim (gone record) fun known => known.1)
    proceeds₁.recorded saving₁ droppedNodes
  rw [saving₂.graph] at wroteNodes
  obtain ⟨third, saving₃, proceeds₃, nodesSeen⟩ := forM_proceeds Act.keepsCanvas_writeNode
    Seen sound
    (fun node member _ _ _ saving recorded _ done =>
      writeNode_proceeds sound recorded member saving done)
    (fun node member _ _ advances seen => advances.seen node member seen)
    proceeds₂.recorded saving₂ wroteNodes
  rw [saving₃.graph] at wroteEdges
  have ends (id : String) (member : id ∈ graph.ids) :
      ∃ record, third.nodeRecords.get? id = some record := by
    obtain ⟨node, inside, rfl⟩ := List.mem_map.mp member
    obtain ⟨record, -, found, -⟩ := proceeds₃.recorded.holdsNode (nodesSeen node inside)
    exact ⟨record, found⟩
  obtain ⟨last, saving₄, proceeds₄, edgesMatch⟩ := forM_proceeds Act.keepsCanvas_writeEdge
    Matches sound
    (fun edge member _ _ _ saving recorded advances done =>
      writeEdge_proceeds sound recorded member (fun id inside => (ends id inside).imp fun record =>
        advances.keeps id inside record) saving done)
    (fun edge member _ _ advances looks => (advances.still edge member looks).1)
    proceeds₃.recorded saving₃ wroteEdges
  cases saving₄.kept.symm.trans kept'
  have later := (proceeds₂.trans sound proceeds₃).trans sound proceeds₄
  have written := proceeds₃.trans sound proceeds₄
  exact {
    toProceeds := proceeds₁.trans sound later
    nodes := fun node member => later.recorded.holdsNode
      (proceeds₄.advances.seen node member (nodesSeen node member))
    edges := edgesMatch
    nodesOnly := by
      intro id record found
      rcases written.advances.origin id record found with known | ⟨member, -⟩
      · rcases proceeds₂.advances.origin id record known with known' | ⟨member, -⟩
        · refine nodesGone id ?_ record known
          obtain ⟨storage, stored, rfl⟩ := Option.map_eq_some_iff.mp saving₁.kept
          exact Catalog.get?_isSome_iff.mp (Option.isSome_iff_exists.mpr ⟨record, known'⟩)
        · exact member
      · exact member
    edgesOnly := by
      intro id record found
      rcases later.advances.edgeOrigin id record found with known | known
      · rcases proceeds₁.advances.edgeOrigin id record known with known' | known'
        · refine edgesGone id ?_ record known
          obtain ⟨storage, stored, rfl⟩ := Option.map_eq_some_iff.mp kept
          exact Catalog.get?_isSome_iff.mp (Option.isSome_iff_exists.mpr ⟨record, known'⟩)
        · exact known'
      · exact known }

end Ledger

end SourceCanvas
