import SourceCanvas.Proofs.SavingLaws

/-!
# Moving records

What it does to a ledger that the nodes of a graph get new ids. The ledger stays recorded
(`Ledger.Recorded.move`). It knows all nodes of its flow as before, unless two of them get the same
id (`Ledger.Owns.move`, `Ledger.orphan_of_clash`), and it holds an edge as before, unless an end of
the edge is an id that another node gets (`Ledger.HoldsEdge.move`, `Ledger.away_of_taken`).
-/

namespace SourceCanvas

namespace Ledger

variable {flow : String} {ledger ledger' ledger'' : Ledger} {renamed : Catalog String}
  {id record : String}

/-! ## New ids -/

theorem newId_of_not_mem (kept : id ∉ renamed.names) : Graph.newId renamed id = id := by
  have unknown : renamed.get? id = none := by
    rw [← Option.not_isSome_iff_eq_none, Catalog.get?_isSome_iff]
    exact kept
  rw [Graph.newId, unknown]
  rfl

/-- An id is left as it is, or it is one of those that are given. -/
theorem newId_mem (renamed : Catalog String) (id : String) :
    Graph.newId renamed id = id ∨ Graph.newId renamed id ∈ renamed.map (·.2) := by
  rcases Graph.newId_eq_or renamed id with same | found
  · exact .inl same
  · exact .inr (List.mem_map_of_mem (f := (·.2)) (Catalog.mem_of_get? found))

/-- Records of ids leave that are given to other nodes and are not renamed themselves. -/
theorem mem_leaving {records : Catalog String} : id ∈ leaving records renamed ↔
    id ∈ records.names ∧ id ∈ renamed.map (·.2) ∧ id ∉ renamed.names := by
  rw [leaving, List.mem_filter, Bool.and_eq_true, List.contains_iff_mem, List.mem_append,
    Bool.not_eq_true', ← Bool.not_eq_true, Catalog.has, Catalog.get?_isSome_iff]
  constructor
  · rintro ⟨known, stale, unnamed⟩
    exact ⟨known, stale.resolve_left unnamed, unnamed⟩
  · rintro ⟨known, given, unnamed⟩
    exact ⟨known, .inr given, unnamed⟩

theorem mem_names_of_get? {records : Catalog String} (found : records.get? id = some record) :
    id ∈ records.names := Catalog.get?_isSome_iff.mp (Option.isSome_iff_exists.mpr ⟨record, found⟩)

/-- No two of the recorded nodes that are renamed get the same id. -/
def Clashless (renamed records : Catalog String) : Prop :=
  ∀ one ∈ records.names, ∀ other ∈ records.names, one ∈ renamed.names → other ∈ renamed.names →
    Graph.newId renamed one = Graph.newId renamed other → one = other

/-! ## Dropping -/

/-- What dropping the records of some ids does to a ledger. -/
structure Dropped (ids : List String) (ledger ledger' : Ledger) : Prop where
  drawn : ledger'.drawn = ledger.drawn
  edgeRecords : ledger'.edgeRecords = ledger.edgeRecords
  nodeSnapshots : ledger'.nodeSnapshots = ledger.nodeSnapshots
  edgeSnapshots : ledger'.edgeSnapshots = ledger.edgeSnapshots
  tidy : ledger'.store.Tidy
  nodesNamed : ledger'.nodeRecords.names.Nodup
  nodeRecords : ∀ id, ledger'.nodeRecords.get? id =
    if id ∈ ids then none else ledger.nodeRecords.get? id
  nodes : ∀ record entry, ledger'.store.HasNode record entry ↔
    ledger.store.HasNode record entry ∧ ∀ id ∈ ids, some record ≠ ledger.nodeRecords.get? id
  edges : ∀ record entry, ledger'.store.HasEdge record entry → ledger.store.HasEdge record entry
  stays : ∀ record entry, ledger.store.HasEdge record entry →
    (∀ id ∈ ids, entry.source ≠ ledger.nodeRecords.get? id ∧
      entry.target ≠ ledger.nodeRecords.get? id) → ledger'.store.HasEdge record entry

theorem Drops.dropped {ids : List String} (drops : ledger.Drops ids ledger')
    (tidy : ledger.store.Tidy) (named : ledger.nodeRecords.names.Nodup) (apart : ids.Nodup) :
    Dropped ids ledger ledger' := by
  induction drops with
  | nil ledger =>
    exact {
      drawn := rfl
      edgeRecords := rfl
      nodeSnapshots := rfl
      edgeSnapshots := rfl
      tidy := tidy
      nodesNamed := named
      nodeRecords := by simp
      nodes := by simp
      edges := fun _ _ has => has
      stays := fun _ _ has _ => has }
  | @cons id ids ledger ledger' reply store answered drops ih =>
    obtain ⟨tidy, nodes, edges, stays⟩ := Store.removeNode_law tidy answered
    obtain ⟨other, apart⟩ := List.nodup_cons.mp apart
    have dropped := ih tidy (Catalog.nodup_names_filter _ named) apart
    -- The ids that are still to come have the records that they had at first.
    have same {later : String} (member : later ∈ ids) :
        (ledger.nodeRecords.erase id).get? later = ledger.nodeRecords.get? later := by
      refine Catalog.get?_erase_ne _ ?_
      rintro rfl
      exact other member
    exact {
      drawn := dropped.drawn
      edgeRecords := dropped.edgeRecords
      nodeSnapshots := dropped.nodeSnapshots
      edgeSnapshots := dropped.edgeSnapshots
      tidy := dropped.tidy
      nodesNamed := dropped.nodesNamed
      nodeRecords := by
        intro name
        rw [dropped.nodeRecords, Catalog.get?_erase]
        by_cases first : name = id
        · simp [first]
        · simp [first]
      nodes := by
        intro record entry
        rw [dropped.nodes, nodes, List.forall_mem_cons, and_assoc]
        refine and_congr_right fun _ => and_congr_right fun _ => ?_
        exact forall₂_congr fun later member => by rw [same member]
      edges := fun record entry has => edges record entry (dropped.edges record entry has)
      stays := by
        intro record entry has free
        obtain ⟨⟨source, target⟩, free⟩ := List.forall_mem_cons.mp free
        refine dropped.stays record entry (stays record entry has source target) ?_
        intro later member
        rw [same member]
        exact free later member }

/-! ## Renaming -/

section Renaming

variable {records : Catalog String} {rename : String → String}

/-- A record under a new id was there under an old one. -/
theorem get?_of_renamed (named : records.names.Nodup)
    (found : (Catalog.ofList (records.map fun (id, record) => (rename id, record))).get? id =
      some record) : ∃ old, records.get? old = some record ∧ rename old = id := by
  rw [Catalog.get?_ofList] at found
  have member := List.mem_reverse.mp (Catalog.mem_of_get? found)
  obtain ⟨⟨old, record'⟩, inside, same⟩ := List.mem_map.mp member
  obtain ⟨rfl, rfl⟩ := Prod.mk.inj same
  exact ⟨old, Catalog.get?_of_mem named inside, rfl⟩

/-- The record of an id is there under the new one, unless another id comes to be the same. -/
theorem get?_renamed (rename : String → String) (named : records.names.Nodup)
    (found : records.get? id = some record)
    (alone : ∀ other record', records.get? other = some record' → rename other = rename id →
      other = id) :
    (Catalog.ofList (records.map fun (id, record) => (rename id, record))).get? (rename id) =
      some record := by
  have there : ((Catalog.ofList (records.map fun (id, record) => (rename id, record))).get?
      (rename id)).isSome = true := by
    rw [Catalog.get?_ofList, Catalog.get?_isSome_iff]
    refine List.mem_map.mpr ⟨(rename id, record), List.mem_reverse.mpr ?_, rfl⟩
    exact List.mem_map.mpr ⟨(id, record), Catalog.mem_of_get? found, rfl⟩
  obtain ⟨record', found'⟩ := Option.isSome_iff_exists.mp there
  obtain ⟨old, known, same⟩ := get?_of_renamed named found'
  cases alone old record' known same
  rw [found', ← known, found]

end Renaming

/-! ## Moving -/

/-- The snapshots that are left are of nodes that keep their ids. -/
theorem snapshot_of_rename {snapshot : NodeSnapshot}
    (seen : (ledger.rename renamed).nodeSnapshots.get? id = some snapshot) :
    ledger.nodeSnapshots.get? id = some snapshot ∧ id ∉ renamed.names ∧
      id ∉ renamed.map (·.2) := by
  rw [Ledger.rename, Catalog.get?_filter
    (fun id => !(renamed.names ++ renamed.map (·.2)).contains id)] at seen
  split at seen
  · next fresh =>
    rw [Bool.not_eq_true', ← Bool.not_eq_true, List.contains_iff_mem, List.mem_append,
      not_or] at fresh
    exact ⟨seen, fresh⟩
  · cases seen

/-- What is stored of the flow without being known, after two nodes have got the same id. -/
def Orphan (flow : String) (ledger : Ledger) (record : String) : Prop :=
  ledger.Drawn record ∧ (∀ id, ledger.nodeRecords.get? id ≠ some record) ∧
    ∃ entry, ledger.store.HasNode record entry ∧ entry.flow = some flow

section Moving

variable (dropped : Dropped (leaving ledger.nodeRecords renamed) ledger ledger')

include dropped

/-- The records that are left are those that stay or are renamed. -/
theorem Dropped.nodeRecord (found : ledger'.nodeRecords.get? id = some record) :
    ledger.nodeRecords.get? id = some record ∧ id ∉ leaving ledger.nodeRecords renamed := by
  rw [dropped.nodeRecords] at found
  split at found
  · cases found
  · next stays => exact ⟨found, stays⟩

/-- A record of a node after moving is the record of a node before. -/
theorem Dropped.moved (found : (ledger'.rename renamed).nodeRecords.get? id = some record) :
    ∃ old, ledger.nodeRecords.get? old = some record ∧
      old ∉ leaving ledger.nodeRecords renamed ∧ Graph.newId renamed old = id := by
  obtain ⟨old, found, same⟩ := get?_of_renamed dropped.nodesNamed found
  obtain ⟨known, stays⟩ := dropped.nodeRecord found
  exact ⟨old, known, stays, same⟩

/-- A node that stays under the id that it has keeps its record. -/
theorem Dropped.keeps (found : ledger.nodeRecords.get? id = some record)
    (unnamed : id ∉ renamed.names) (free : id ∉ renamed.map (·.2)) :
    (ledger'.rename renamed).nodeRecords.get? id = some record := by
  have stays : id ∉ leaving ledger.nodeRecords renamed := fun leaves =>
    free (mem_leaving.mp leaves).2.1
  have known : ledger'.nodeRecords.get? id = some record := by
    rw [dropped.nodeRecords, if_neg stays]
    exact found
  have moved := get?_renamed (Graph.newId renamed) dropped.nodesNamed known
    fun other record' _ same => by
      rw [newId_of_not_mem unnamed] at same
      rcases newId_mem renamed other with same' | given
      · exact same'.symm.trans same
      · exact absurd (same ▸ given) free
  rwa [newId_of_not_mem unnamed] at moved

theorem Dropped.shrinks (recorded : ledger.Recorded flow) :
    ledger.Shrinks { ledger' with nodeSnapshots := (ledger'.rename renamed).nodeSnapshots } where
  drawn := dropped.drawn
  tidy := dropped.tidy
  nodesNamed := dropped.nodesNamed
  edgesNamed := dropped.edgeRecords ▸ recorded.edgesNamed
  nodeRecords := fun id record found => (dropped.nodeRecord found).1
  edgeRecords := fun id record found => dropped.edgeRecords ▸ found
  nodes := fun record entry has => ((dropped.nodes record entry).mp has).1
  edges := dropped.edges
  edgesKnown := fun id record entry found _ => dropped.edgeRecords.symm ▸ found
  nodesShown := by
    intro id snapshot seen
    obtain ⟨seen, -, free⟩ := snapshot_of_rename seen
    have stays : id ∉ leaving ledger.nodeRecords renamed := fun leaves =>
      free (mem_leaving.mp leaves).2.1
    refine ⟨dropped.nodeSnapshots ▸ seen, fun record found => ⟨?_, fun entry has => ?_⟩⟩
    · show ledger'.nodeRecords.get? id = some record
      rw [dropped.nodeRecords, if_neg stays]
      exact found
    · refine (dropped.nodes record entry).mpr ⟨has, fun other leaves same => stays ?_⟩
      rwa [recorded.nodesApart id other record found same.symm]
  edgesSeen := fun id snapshot seen =>
    ⟨dropped.edgeSnapshots ▸ seen, fun record found => dropped.edgeRecords.symm ▸ found⟩

/-- Moving records leaves a ledger recorded. -/
theorem Recorded.move (recorded : ledger.Recorded flow) : (ledger'.rename renamed).Recorded flow :=
  have shrunk := recorded.shrink (dropped.shrinks recorded)
  have drawn {id record : String}
      (found : (ledger'.rename renamed).nodeRecords.get? id = some record) :
      (ledger'.rename renamed).Drawn record := by
    obtain ⟨old, known, -, -⟩ := dropped.moved found
    show ∃ count ≤ ledger'.drawn, _
    rw [dropped.drawn]
    exact recorded.nodesDrawn old record known
  { shrunk with
    nodesNamed := Catalog.nodup_names_ofList _
    nodesApart := by
      intro id id' record found found'
      obtain ⟨old, known, -, rfl⟩ := dropped.moved found
      obtain ⟨old', known', -, rfl⟩ := dropped.moved found'
      rw [recorded.nodesApart old old' record known known']
    nodesDrawn := fun id record found => drawn found
    nodesFlow := by
      intro id record entry found has
      obtain ⟨old, known, -, -⟩ := dropped.moved found
      exact recorded.nodesFlow old record entry known ((dropped.nodes record entry).mp has).1
    nodesShown := by
      intro id snapshot seen
      obtain ⟨record, node, found, ids, shown, has⟩ := shrunk.nodesShown id snapshot seen
      obtain ⟨-, unnamed, free⟩ := snapshot_of_rename seen
      exact ⟨record, node, dropped.keeps (dropped.nodeRecord found).1 unnamed free, ids, shown,
        has⟩ }

/-- Of the nodes whose records are left, only renamed ones can get the same id. -/
theorem Dropped.renamed_of_same {id' record' : String}
    (found : ledger'.nodeRecords.get? id = some record)
    (found' : ledger'.nodeRecords.get? id' = some record')
    (same : Graph.newId renamed id = Graph.newId renamed id') :
    id = id' ∨ id ∈ renamed.names ∧ id' ∈ renamed.names := by
  obtain ⟨known, stays⟩ := dropped.nodeRecord found
  obtain ⟨known', stays'⟩ := dropped.nodeRecord found'
  by_cases named : id ∈ renamed.names
  · by_cases named' : id' ∈ renamed.names
    · exact .inr ⟨named, named'⟩
    · rw [newId_of_not_mem named'] at same
      rcases newId_mem renamed id with same' | given
      · exact .inl (same'.symm.trans same)
      · exact absurd (mem_leaving.mpr ⟨mem_names_of_get? known', same ▸ given, named'⟩) stays'
  · rw [newId_of_not_mem named] at same
    rcases newId_mem renamed id' with same' | given
    · exact .inl (same.trans same')
    · exact absurd (mem_leaving.mpr ⟨mem_names_of_get? known, same ▸ given, named⟩) stays

/-- A ledger that knows all nodes of its flow still does, if no two of them get the same id. -/
theorem Owns.move (owns : ledger.Owns flow) (clashless : Clashless renamed ledger.nodeRecords) :
    (ledger'.rename renamed).Owns flow := by
  intro record entry has inFlow
  obtain ⟨has, undropped⟩ := (dropped.nodes record entry).mp has
  obtain ⟨id, found⟩ := owns record entry has inFlow
  have stays : id ∉ leaving ledger.nodeRecords renamed := fun leaves =>
    undropped id leaves found.symm
  have left : ledger'.nodeRecords.get? id = some record := by
    rw [dropped.nodeRecords, if_neg stays]
    exact found
  refine ⟨Graph.newId renamed id, get?_renamed _ dropped.nodesNamed left ?_⟩
  intro other record' found' same
  rcases dropped.renamed_of_same found' left same with equal | ⟨named, named'⟩
  · exact equal
  · exact clashless _ (mem_names_of_get? (dropped.nodeRecord found').1) _ (mem_names_of_get? found)
      named named' same

theorem orphan_of_clash (recorded : ledger.Recorded flow)
    (stored : ∀ id record, ledger.nodeRecords.get? id = some record →
      ∃ entry, ledger.store.HasNode record entry)
    (clash : ¬Clashless renamed ledger.nodeRecords) :
    ∃ record, (ledger'.rename renamed).Orphan flow record := by
  simp only [Clashless, not_forall] at clash
  obtain ⟨one, known, other, known', named, named', same, different⟩ := clash
  obtain ⟨record, found⟩ := Option.isSome_iff_exists.mp (Catalog.get?_isSome_iff.mpr known)
  obtain ⟨record', found'⟩ := Option.isSome_iff_exists.mp (Catalog.get?_isSome_iff.mpr known')
  -- Both records are left, and only the id that both nodes get can have either.
  have orphan {id record : String} (found : ledger.nodeRecords.get? id = some record)
      (named : id ∈ renamed.names)
      (lost : (ledger'.rename renamed).nodeRecords.get? (Graph.newId renamed id) ≠ some record) :
      (ledger'.rename renamed).Orphan flow record := by
    obtain ⟨entry, has⟩ := stored id record found
    have undropped : ∀ other ∈ leaving ledger.nodeRecords renamed,
        some record ≠ ledger.nodeRecords.get? other := by
      intro other leaves same
      rw [recorded.nodesApart other id record same.symm found] at leaves
      exact (mem_leaving.mp leaves).2.2 named
    refine ⟨?_, ?_, entry, (dropped.nodes record entry).mpr ⟨has, undropped⟩,
      recorded.nodesFlow id record entry found has⟩
    · show ∃ count ≤ ledger'.drawn, _
      rw [dropped.drawn]
      exact recorded.nodesDrawn id record found
    · intro new moved
      obtain ⟨old, known, -, rfl⟩ := dropped.moved moved
      rw [recorded.nodesApart old id record known found] at moved
      exact lost moved
  by_cases first : (ledger'.rename renamed).nodeRecords.get? (Graph.newId renamed one) = some record
  · refine ⟨record', orphan found' named' fun second => different ?_⟩
    rw [← same, first] at second
    cases second
    exact recorded.nodesApart one other record found found'
  · exact ⟨record, orphan found named first⟩

/-- An edge between nodes that stay where they are is held as before. -/
theorem HoldsEdge.move {edge : Edge} (recorded : ledger.Recorded flow)
    (holds : ledger.HoldsEdge flow edge)
    (source : edge.source ∉ renamed.names ∧ edge.source ∉ renamed.map (·.2))
    (target : edge.target ∉ renamed.names ∧ edge.target ∉ renamed.map (·.2)) :
    (ledger'.rename renamed).HoldsEdge flow edge := by
  obtain ⟨record, from_, into, found, fromKnown, intoKnown, has⟩ := holds
  have other {id end_ record : String} (known : ledger.nodeRecords.get? end_ = some record)
      (free : end_ ∉ renamed.map (·.2)) (leaves : id ∈ leaving ledger.nodeRecords renamed) :
      some record ≠ ledger.nodeRecords.get? id := by
    intro same
    rw [recorded.nodesApart id end_ record same.symm known] at leaves
    exact free (mem_leaving.mp leaves).2.1
  refine ⟨record, from_, into, ?_, dropped.keeps fromKnown source.1 source.2,
    dropped.keeps intoKnown target.1 target.2, dropped.stays record _ has fun id leaves => ?_⟩
  · show ledger'.edgeRecords.get? edge.id = some record
    rw [dropped.edgeRecords]
    exact found
  · exact ⟨other fromKnown source.2 leaves, other intoKnown target.2 leaves⟩

/-- A node whose id another node gets does not have its record any more. -/
theorem away_of_taken (recorded : ledger.Recorded flow)
    (different : ∀ old new, renamed.get? old = some new → old ≠ new)
    (found : ledger.nodeRecords.get? id = some record) (taken : id ∈ renamed.map (·.2)) :
    (ledger'.rename renamed).nodeRecords.get? id ≠ some record := by
  intro moved
  obtain ⟨old, known, stays, same⟩ := dropped.moved moved
  cases recorded.nodesApart old id record known found
  refine stays (mem_leaving.mpr ⟨mem_names_of_get? found, taken, fun named => ?_⟩)
  obtain ⟨new, known⟩ := Option.isSome_iff_exists.mp (Catalog.get?_isSome_iff.mpr named)
  refine different id new known ?_
  rw [Graph.newId, known] at same
  exact same.symm

end Moving

/-! ## Keeping a text -/

section Notes

variable {named : Option String} {text : String}

/-- Keeping a text changes the store and nothing that it holds of nodes and edges. -/
theorem Notes.law (notes : ledger.Notes named text ledger') (tidy : ledger.store.Tidy) :
    ∃ store, ledger' = { ledger with store } ∧ store.Tidy ∧
      (∀ record entry, store.HasNode record entry ↔ ledger.store.HasNode record entry) ∧
      ∀ record entry, store.HasEdge record entry ↔ ledger.store.HasEdge record entry := by
  rcases notes with rfl | ⟨reply, store, rfl, answered⟩
  · exact ⟨ledger'.store, rfl, tidy, fun _ _ => Iff.rfl, fun _ _ => Iff.rfl⟩
  · exact ⟨store, rfl, Store.updatePreview_law tidy answered⟩

theorem Notes.proceeds (notes : ledger.Notes named text ledger') (recorded : ledger.Recorded flow)
    (graph : Graph) : Proceeds flow graph ledger ledger' := by
  obtain ⟨store, rfl, tidy, nodes, edges⟩ := notes.law recorded.tidy
  refine ⟨recorded.shrink ?_, ?_, ?_⟩
  · exact {
      drawn := rfl
      tidy := tidy
      nodesNamed := recorded.nodesNamed
      edgesNamed := recorded.edgesNamed
      nodeRecords := fun _ _ found => found
      edgeRecords := fun _ _ found => found
      nodes := fun record entry has => (nodes record entry).mp has
      edges := fun record entry has => (edges record entry).mp has
      edgesKnown := fun _ _ _ found _ => found
      nodesShown := fun _ _ seen => ⟨seen, fun record found =>
        ⟨found, fun entry has => (nodes record entry).mpr has⟩⟩
      edgesSeen := fun _ _ seen => ⟨seen, fun _ found => found⟩ }
  · exact {
      drawn := Nat.le_refl _
      keeps := fun _ _ _ found => found
      origin := fun _ _ found => .inl found
      edgeOrigin := fun _ _ found => .inl found
      seen := fun _ _ seen => seen
      still := fun _ _ looks => ⟨looks, rfl⟩
      looked := fun _ _ looks => .inl looks
      unwritten := fun _ _ _ record entry _ has => (edges record entry).mp has
      stays := fun _ _ _ record entry _ has _ => (edges record entry).mpr has
      orphans := fun record entry _ _ has => (nodes record entry).mpr has }
  · exact fun owns record entry has => owns record entry ((nodes record entry).mp has)

theorem Notes.saved {graph : Graph} (notes : ledger'.Notes named text ledger'')
    (sound : graph.Sound) (saved : Saved flow graph ledger ledger') :
    Saved flow graph ledger ledger'' := by
  have proceeds := notes.proceeds saved.recorded graph
  obtain ⟨store, rfl, -, nodes, -⟩ := notes.law saved.recorded.tidy
  exact {
    toProceeds := saved.toProceeds.trans sound proceeds
    nodes := by
      intro node member
      obtain ⟨record, entry, found, has, shows_⟩ := saved.nodes node member
      exact ⟨record, entry, found, (nodes record entry).mpr has, shows_⟩
    edges := saved.edges
    nodesOnly := saved.nodesOnly
    edgesOnly := saved.edgesOnly }

/-- Saving a graph after a text is kept. -/
theorem Notes.saved_after {graph : Graph} (notes : ledger.Notes named text ledger')
    (recorded : ledger.Recorded flow) (sound : graph.Sound)
    (saves : ledger'.Saves (some flow) graph ledger'') : Saved flow graph ledger ledger'' := by
  have proceeds := notes.proceeds recorded graph
  have saved := saves_spec sound proceeds.recorded saves
  exact { saved with toProceeds := proceeds.trans sound saved.toProceeds }

end Notes

end Ledger

end SourceCanvas
