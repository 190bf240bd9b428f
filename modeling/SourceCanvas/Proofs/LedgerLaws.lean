import SourceCanvas.Proofs.RekeyLaws
import SourceCanvas.Proofs.SessionSteps
import SourceCanvas.Proofs.StoreLaws

/-!
# Ledgers

What holds of a ledger between any two calls of the store (`Ledger.Recorded`): its records are
drawn, they belong to one id each, and what the store holds under them is what the snapshots say.
The laws say what each kind of call does to a ledger of which this holds.
-/

namespace SourceCanvas

/-! ## Records and what they show -/

/-- The id in a graph that stored data is labelled with. -/
def localId? (data : Json) : Option String := (data.field? "localId").bind Json.string?

/-- Two places are the same, as numbers or as values. -/
def SamePlace (x y : Option Float) (place : Point) : Prop :=
  ∃ x' y', x = some x' ∧ y = some y' ∧ (x' = place.x ∨ sameNumber x' place.x = true) ∧
    (y' = place.y ∨ sameNumber y' place.y = true)

/-- What a store keeps of a node is what the node looks like. The fields of objects may come in
another order. -/
structure NodeEntry.Shows (entry : NodeEntry) (node : CanvasNode) : Prop where
  kind : entry.kind = some node.kindName
  data : entry.data.sorted = node.payload.sorted
  place : SamePlace entry.x entry.y node.position

theorem sorted_payload (node : CanvasNode) :
    node.payload.sorted = .object [
      ("attributes", .object (Json.sortedFields node.content.toFields)),
      ("kind", .string node.kindName), ("localId", .string node.id),
      ("parentId", (Json.ofText? node.parent).sorted)] := by
  have first : ¬"parentId" < "attributes" := by decide +kernel
  have second : ¬"kind" < "attributes" := by decide +kernel
  have third : "kind" < "parentId" := by decide +kernel
  have fourth : ¬"localId" < "attributes" := by decide +kernel
  have fifth : ¬"localId" < "kind" := by decide +kernel
  have sixth : "localId" < "parentId" := by decide +kernel
  rw [CanvasNode.payload]
  simp only [Json.sorted, Json.sortedFields, Json.insertSorted, if_neg first, if_neg second,
    if_pos third, if_neg fourth, if_neg fifth, if_pos sixth]

theorem localId_entry (node : CanvasNode) (flow : Option String) :
    localId? (node.entry flow).data = some node.id := by
  simp [localId?, CanvasNode.entry, CanvasNode.payload, Json.field?, Catalog.get?_cons, Json.string?]

theorem localId_edge (edge : Edge) (flow : Option String) (source target : String) :
    localId? (edge.entry flow source target).data = some edge.id := by
  simp [localId?, Edge.entry, Json.field?, Json.string?]

theorem kindName_of_payload {node node' : CanvasNode}
    (same : node.payload.sorted = node'.payload.sorted) : node.kindName = node'.kindName := by
  rw [sorted_payload, sorted_payload] at same
  simp only [Json.object.injEq, List.cons.injEq, Prod.mk.injEq, Json.string.injEq] at same
  exact same.2.1.2

/-- Nodes that look the same to a store are shown by the same entry. -/
theorem shows_of_same {node node' : CanvasNode} (flow : Option String)
    (same : node.snapshot.same node'.snapshot = true) : (node.entry flow).Shows node' := by
  rw [NodeSnapshot.same, Bool.and_eq_true, Bool.and_eq_true, beq_iff_eq] at same
  obtain ⟨⟨payload, x⟩, y⟩ := same
  exact {
    kind := congrArg some (kindName_of_payload payload)
    data := payload
    place := ⟨_, _, rfl, rfl, .inr x, .inr y⟩ }

theorem shows_of_eq {node node' : CanvasNode} (flow : Option String)
    (same : node.snapshot = node'.snapshot) : (node.entry flow).Shows node' := by
  obtain ⟨payload, place⟩ := NodeSnapshot.mk.inj same
  exact {
    kind := congrArg some (kindName_of_payload payload)
    data := payload
    place := ⟨_, _, rfl, rfl, .inl (congrArg Point.x place), .inl (congrArg Point.y place)⟩ }

theorem Edge.Proper.data_cases {edge : Edge} (proper : edge.Proper) :
    edge.data = [] ∨ edge.data = Edge.containment := by
  rcases proper with ⟨data, -⟩ | ⟨data, -⟩
  · exact .inl data
  · exact .inr data

theorem sorted_ofText? (text : Option String) : (Json.ofText? text).sorted = Json.ofText? text := by
  cases text <;> rfl

/-- An edge follows from its id and from how it looks to a store. -/
theorem Edge.eq_of_snapshot {edge edge' : Edge} (proper : edge.Proper) (proper' : edge'.Proper)
    (ids : edge.id = edge'.id) (same : edge.snapshot = edge'.snapshot) : edge = edge' := by
  simp only [Edge.snapshot, Json.sorted, Json.sortedItems, sorted_ofText?, Json.array.injEq,
    List.cons.injEq, Json.string.injEq, Json.object.injEq, Json.ofText?_inj] at same
  obtain ⟨source, sourceHandle, target, targetHandle, sortedData, -⟩ := same
  have data : edge.data = edge'.data := by
    rcases proper.data_cases with none | some <;> rcases proper'.data_cases with none' | some'
    · rw [none, none']
    · rw [none, some'] at sortedData
      cases sortedData
    · rw [some, none'] at sortedData
      cases sortedData
    · rw [some, some']
  cases edge
  cases edge'
  cases ids
  cases source
  cases target
  cases data
  cases sourceHandle
  cases targetHandle
  rfl

/-! ## Recorded ledgers -/

/-- An id of a record that has been drawn. -/
def Ledger.Drawn (ledger : Ledger) (record : String) : Prop :=
  ∃ count ≤ ledger.drawn, record = Supply.idOf "a000" count

/-- What holds of a ledger of a flow between calls of the store. -/
structure Ledger.Recorded (flow : String) (ledger : Ledger) : Prop where
  tidy : ledger.store.Tidy
  /-- what the store holds has not been drawn yet to be -/
  past : ∀ count > ledger.drawn, ∀ entry entry',
    ¬ledger.store.HasNode (Supply.idOf "a000" count) entry ∧
      ¬ledger.store.HasEdge (Supply.idOf "a000" count) entry'
  nodesNamed : ledger.nodeRecords.names.Nodup
  edgesNamed : ledger.edgeRecords.names.Nodup
  nodesApart : ∀ id id' record, ledger.nodeRecords.get? id = some record →
    ledger.nodeRecords.get? id' = some record → id = id'
  edgesApart : ∀ id id' record, ledger.edgeRecords.get? id = some record →
    ledger.edgeRecords.get? id' = some record → id = id'
  nodesDrawn : ∀ id record, ledger.nodeRecords.get? id = some record → ledger.Drawn record
  edgesDrawn : ∀ id record, ledger.edgeRecords.get? id = some record → ledger.Drawn record
  /-- a known record of a node belongs to the flow -/
  nodesFlow : ∀ id record entry, ledger.nodeRecords.get? id = some record →
    ledger.store.HasNode record entry → entry.flow = some flow
  /-- a known record of an edge belongs to the flow and is labelled with the id of the edge -/
  edgesFlow : ∀ id record entry, ledger.edgeRecords.get? id = some record →
    ledger.store.HasEdge record entry → entry.flow = some flow ∧ localId? entry.data = some id
  /-- all edges of the flow are known -/
  edgesKnown : ∀ record entry, ledger.store.HasEdge record entry → entry.flow = some flow →
    ∃ id, ledger.edgeRecords.get? id = some record
  /-- a node that has a snapshot is stored the way that it shows -/
  nodesShown : ∀ id snapshot, ledger.nodeSnapshots.get? id = some snapshot →
    ∃ (record : String) (node : CanvasNode), ledger.nodeRecords.get? id = some record ∧
      node.id = id ∧
      node.snapshot = snapshot ∧ ledger.store.HasNode record (node.entry (some flow))
  edgesSeen : ∀ id snapshot, ledger.edgeSnapshots.get? id = some snapshot →
    ∃ record, ledger.edgeRecords.get? id = some record

/-- All nodes of the flow are known. -/
def Ledger.Owns (flow : String) (ledger : Ledger) : Prop :=
  ∀ record entry, ledger.store.HasNode record entry → entry.flow = some flow →
    ∃ id, ledger.nodeRecords.get? id = some record

/-- An edge is stored the way it is, between the records of its ends. -/
def Ledger.HoldsEdge (flow : String) (ledger : Ledger) (edge : Edge) : Prop :=
  ∃ record source target, ledger.edgeRecords.get? edge.id = some record ∧
    ledger.nodeRecords.get? edge.source = some source ∧
    ledger.nodeRecords.get? edge.target = some target ∧
    ledger.store.HasEdge record (edge.entry (some flow) source target)

namespace Ledger

variable {flow : String} {ledger ledger' : Ledger} {record : String}

theorem not_drawn_fresh : ¬ledger.Drawn ledger.fresh := by
  rintro ⟨count, small, same⟩
  have := Supply.idOf_inj same
  omega

theorem Drawn.ne_fresh (drawn : ledger.Drawn record) : record ≠ ledger.fresh := by
  rintro rfl
  exact not_drawn_fresh drawn

/-- The record under which something is written, and how many have been drawn then: its own record,
or a fresh one. -/
inductive Target (ledger : Ledger) : Option String → String → Nat → Prop
  | own (record : String) : Target ledger (some record) record ledger.drawn
  | fresh : Target ledger none ledger.fresh (ledger.drawn + 1)

theorem target_of_drawn {own : Option String} (drawn : ∀ record, own = some record →
      ledger.Drawn record) :
    ledger.Target own (Store.target ledger.fresh own)
      (if (Text.given? own).isNone then ledger.drawn + 1 else ledger.drawn) := by
  cases own with
  | none => exact .fresh
  | some record =>
    obtain ⟨count, -, rfl⟩ := drawn record rfl
    have given : Text.given? (some (Supply.idOf "a000" count)) = some (Supply.idOf "a000" count) := by
      rw [Text.given?, Option.bind_some, Text.nonempty?, if_neg (Supply.idOf_ne_empty _ _)]
    rw [Store.target, given]
    exact .own _

namespace Target

variable {own : Option String} {target : String} {count : Nat}

theorem le (chosen : ledger.Target own target count) : ledger.drawn ≤ count := by
  cases chosen <;> omega

/-- No drawn record is written over but its own. -/
theorem ne_of_drawn (chosen : ledger.Target own target count) (drawn : ledger.Drawn record)
    (other : own ≠ some record) : record ≠ target := by
  cases chosen with
  | own => exact fun same => other (congrArg some same.symm)
  | fresh => exact drawn.ne_fresh

/-- A record that is not the one that is written belongs to another id. -/
theorem ne_of_other {records : Catalog String} {id other : String}
    (chosen : ledger.Target (records.get? id) target count)
    (apart : ∀ id id' record, records.get? id = some record → records.get? id' = some record →
      id = id')
    (allDrawn : ∀ id record, records.get? id = some record → ledger.Drawn record)
    (different : other ≠ id) (found : records.get? other = some record) : record ≠ target :=
  chosen.ne_of_drawn (allDrawn other record found) fun own =>
    different (apart other id record found own)

theorem own_or_fresh (chosen : ledger.Target own target count) :
    own = some target ∨ target = ledger.fresh := by
  cases chosen with
  | own => exact .inl rfl
  | fresh => exact .inr rfl

theorem drawn (chosen : ledger.Target own target count)
    (ownDrawn : ∀ record, own = some record → ledger.Drawn record) :
    ∃ number ≤ count, target = Supply.idOf "a000" number := by
  cases chosen with
  | own => exact ownDrawn _ rfl
  | fresh => exact ⟨_, Nat.le_refl _, rfl⟩

end Target

end Ledger

/-! ## What the acts of saving do to a ledger -/

namespace Session

variable {session session' : Session} {ledger : Ledger}

theorem dropEdge_ledger {id : String} (kept : session.ledger? = some ledger)
    (done : (dropEdge id).on session = (.ok (), session')) :
    hasLiveEdge session.graph id = true ∧ session'.ledger? = some ledger ∨
      hasLiveEdge session.graph id = false ∧ ∃ reply store,
        ledger.store.perform ledger.fresh (.removeEdge (ledger.edgeRecords.get? id)) =
          (.ok reply, store) ∧
        session'.ledger? = some { ledger with
          store
          edgeRecords := ledger.edgeRecords.erase id
          edgeSnapshots := ledger.edgeSnapshots.erase id } := by
  obtain ⟨storage, stored, rfl⟩ := Option.map_eq_some_iff.mp kept
  unfold dropEdge at done
  rw [Act.on_get] at done
  split at done
  · next live =>
    cases done
    exact .inl ⟨live, kept⟩
  · next gone =>
    refine .inr ⟨by simpa using gone, ?_⟩
    rw [Act.on_set] at done
    obtain ⟨reply, between, asked, rest⟩ := Act.on_bind_ok done
    cases rest
    have kept' : Session.ledger? { session with edgeRecords := session.edgeRecords.erase id } =
        some _ := ledger_modify (fun ledger => { ledger with
          edgeRecords := ledger.edgeRecords.erase id }) kept rfl fun _ => rfl
    obtain ⟨store, answered, kept''⟩ := Act.ledger_ask kept' asked
    exact ⟨reply, store, answered, ledger_modify (fun ledger => { ledger with
      edgeSnapshots := ledger.edgeSnapshots.erase id }) kept'' rfl fun _ => rfl⟩

theorem dropNode_ledger {id : String} (kept : session.ledger? = some ledger)
    (done : (dropNode id).on session = (.ok (), session')) :
    session.graph.hasNode id = true ∧ session'.ledger? = some ledger ∨
      session.graph.hasNode id = false ∧ ∃ reply store,
        ledger.store.perform ledger.fresh (.removeNode (ledger.nodeRecords.get? id)) =
          (.ok reply, store) ∧
        session'.ledger? = some { ledger with
          store
          nodeRecords := ledger.nodeRecords.erase id
          nodeSnapshots := ledger.nodeSnapshots.erase id } := by
  obtain ⟨storage, stored, rfl⟩ := Option.map_eq_some_iff.mp kept
  unfold dropNode at done
  rw [Act.on_get] at done
  split at done
  · next there =>
    cases done
    exact .inl ⟨there, kept⟩
  · next gone =>
    refine .inr ⟨by simpa using gone, ?_⟩
    rw [Act.on_set] at done
    obtain ⟨reply, between, asked, rest⟩ := Act.on_bind_ok done
    cases rest
    have kept' : Session.ledger? { session with nodeRecords := session.nodeRecords.erase id } =
        some _ := ledger_modify (fun ledger => { ledger with
          nodeRecords := ledger.nodeRecords.erase id }) kept rfl fun _ => rfl
    obtain ⟨store, answered, kept''⟩ := Act.ledger_ask kept' asked
    exact ⟨reply, store, answered, ledger_modify (fun ledger => { ledger with
      nodeSnapshots := ledger.nodeSnapshots.erase id }) kept'' rfl fun _ => rfl⟩

theorem writeNode_ledger {node : CanvasNode} (kept : session.ledger? = some ledger)
    (done : (writeNode node).on session = (.ok (), session')) :
    (ledger.nodeSnapshots.get? node.id).any (·.same node.snapshot) = true ∧
        session'.ledger? = some ledger ∨
      ∃ reply store,
        ledger.store.perform ledger.fresh (.upsertNode (ledger.nodeRecords.get? node.id)
          (node.entry session.setup.flow)) = (.ok reply, store) ∧
        session'.ledger? = some { ledger with
          store
          drawn := if (Text.given? (ledger.nodeRecords.get? node.id)).isNone then ledger.drawn + 1
            else ledger.drawn
          nodeRecords := Catalog.insert node.id (reply.id?.getD "") ledger.nodeRecords
          nodeSnapshots := Catalog.insert node.id node.snapshot ledger.nodeSnapshots } := by
  obtain ⟨storage, stored, rfl⟩ := Option.map_eq_some_iff.mp kept
  unfold writeNode at done
  rw [Act.on_get] at done
  split at done
  · next same =>
    cases done
    exact .inl ⟨same, kept⟩
  · refine .inr ?_
    obtain ⟨reply, between, asked, rest⟩ := Act.on_bind_ok done
    cases rest
    obtain ⟨store, answered, kept'⟩ := Act.ledger_ask kept asked
    exact ⟨reply, store, answered, ledger_modify (fun ledger => { ledger with
      nodeRecords := Catalog.insert node.id (reply.id?.getD "") ledger.nodeRecords
      nodeSnapshots := Catalog.insert node.id node.snapshot ledger.nodeSnapshots }) kept' rfl
        fun _ => rfl⟩

theorem writeEdge_ledger {edge : Edge} {source target : String}
    (kept : session.ledger? = some ledger)
    (from_ : ledger.nodeRecords.get? edge.source = some source)
    (into : ledger.nodeRecords.get? edge.target = some target)
    (done : (writeEdge edge).on session = (.ok (), session')) :
    ledger.edgeSnapshots.get? edge.id = some edge.snapshot ∧ session'.ledger? = some ledger ∨
      ledger.edgeSnapshots.get? edge.id ≠ some edge.snapshot ∧ ∃ reply store,
        ledger.store.perform ledger.fresh (.upsertEdge (ledger.edgeRecords.get? edge.id)
          (edge.entry session.setup.flow source target)) = (.ok reply, store) ∧
        session'.ledger? = some { ledger with
          store
          drawn := if (Text.given? (ledger.edgeRecords.get? edge.id)).isNone then ledger.drawn + 1
            else ledger.drawn
          edgeRecords := Catalog.insert edge.id (reply.id?.getD "") ledger.edgeRecords
          edgeSnapshots := Catalog.insert edge.id edge.snapshot ledger.edgeSnapshots } := by
  obtain ⟨storage, stored, rfl⟩ := Option.map_eq_some_iff.mp kept
  unfold writeEdge at done
  rw [Act.on_get] at done
  split at done
  · next same =>
    cases done
    exact .inl ⟨same, kept⟩
  · next different =>
    refine .inr ⟨different, ?_⟩
    have from' : session.nodeRecords.get? edge.source = some source := from_
    have into' : session.nodeRecords.get? edge.target = some target := into
    rw [from', into'] at done
    obtain ⟨reply, between, asked, rest⟩ := Act.on_bind_ok done
    cases rest
    obtain ⟨store, answered, kept'⟩ := Act.ledger_ask kept asked
    exact ⟨reply, store, answered, ledger_modify (fun ledger => { ledger with
      edgeRecords := Catalog.insert edge.id (reply.id?.getD "") ledger.edgeRecords
      edgeSnapshots := Catalog.insert edge.id edge.snapshot ledger.edgeSnapshots }) kept' rfl
        fun _ => rfl⟩

end Session

end SourceCanvas
