import SourceCanvas.Proofs.ActInvariants
import SourceCanvas.Proofs.RekeyLaws
import SourceCanvas.Proofs.SessionSteps
import SourceCanvas.Proofs.StoreLaws

/-!
# The integrity of graphs

A graph has its integrity if no two nodes and no two edges have the same id and every edge joins two
nodes of the graph (`Graph.Whole`). A session keeps that through every command, whatever its store
holds and wherever it fails, as long as the store gives no node an id with an arrow in it, and none
but containment edges (`Store.Arrowless`): the ids of containment edges are made with an arrow,
which then tells them from all others. What a session writes into its store is such again, so that
it is enough to ask this of the store it starts with (`Session.whole_of_run`).
-/

namespace SourceCanvas

open Session

/-! ## Arrows in ids -/

/-- No arrow stands in an id. -/
def Arrowless (id : String) : Prop := ¬['-', '>'] <:+: id.toList

instance (id : String) : Decidable (Arrowless id) :=
  inferInstanceAs (Decidable (¬['-', '>'] <:+: id.toList))

theorem Plain.arrowless {id : String} (plain : Plain id) : Arrowless id :=
  fun arrow => plain (arrow.subset (by simp))

theorem arrowless_empty : Arrowless "" := by decide

/-- A list is cut in one way only before its first arrow. -/
theorem arrow_cut_inj {as bs cs ds : List Char} (first : ¬['-', '>'] <:+: as)
    (first' : ¬['-', '>'] <:+: cs) (same : as ++ '-' :: '>' :: bs = cs ++ '-' :: '>' :: ds) :
    as = cs := by
  -- a list that goes on where the other one has its arrow would have that arrow itself
  have goesOn {bs cs ds : List Char} {c : Char} (without : ¬['-', '>'] <:+: c :: cs)
      (same : '-' :: '>' :: bs = (c :: cs) ++ '-' :: '>' :: ds) : False := by
    cases cs with
    | nil => simp at same
    | cons c' cs =>
      simp only [List.cons_append, List.cons.injEq] at same
      obtain ⟨rfl, rfl, -⟩ := same
      exact without ⟨[], cs, rfl⟩
  induction as generalizing cs with
  | nil =>
    cases cs with
    | nil => rfl
    | cons c cs => exact (goesOn first' same).elim
  | cons a as ih =>
    cases cs with
    | nil => exact (goesOn first same.symm).elim
    | cons c cs =>
      obtain ⟨rfl, tails⟩ := List.cons.inj same
      rw [ih (fun arrow => first (List.infix_cons arrow))
        (fun arrow => first' (List.infix_cons arrow)) tails]

theorem toList_arrow (child parent : String) :
    (child ++ "->" ++ parent).toList = child.toList ++ '-' :: '>' :: parent.toList := by
  rw [toList_containmentId, List.append_assoc]
  rfl

theorem not_arrowless_containmentId (child parent : String) :
    ¬Arrowless (child ++ "->" ++ parent) := by
  refine not_not_intro ?_
  rw [toList_arrow]
  exact ⟨child.toList, parent.toList, by simp⟩

/-- An edge shows a containment, or no arrow stands in its id. -/
def Edge.Arrowed (edge : Edge) : Prop := edge.isContainment = true ∨ Arrowless edge.id

/-- No arrow stands in the id of a node, nor in that of an edge which shows no containment. -/
def Naming.arrowless : Naming where
  node := Arrowless
  edge := Edge.Arrowed
  node_of_plain _ plain := plain.arrowless
  edge_of_byHand _ byHand := .inr byHand.2.arrowless
  edge_containment _ _ := .inl rfl
  edge_renamed _ _ arrowed _ := arrowed
  apart edge child parent arrowed drawn _ same := by
    have without := arrowed.resolve_left (by rw [drawn]; exact Bool.false_ne_true)
    exact not_arrowless_containmentId child parent (same ▸ without)
  inj child child' parent parent' without without' same := by
    have aligned := congrArg String.toList same
    rw [toList_arrow, toList_arrow] at aligned
    exact String.ext (arrow_cut_inj without without' aligned)

/-- What is found under an id is the one node with that id, edges join nodes, and no two edges have
the same id. -/
structure Graph.Whole (graph : Graph) : Prop where
  keyed : ∀ id node, graph.node? id = some node ↔ node ∈ graph.nodes ∧ node.id = id
  ends : ∀ edge ∈ graph.edges, graph.hasNode edge.source ∧ graph.hasNode edge.target
  edges : (graph.edges.map (·.id)).Nodup

theorem Graph.Formed.whole {naming : Naming} {graph : Graph} (formed : graph.Formed naming) :
    graph.Whole where
  keyed id node := by
    constructor
    · intro found
      exact ⟨List.mem_of_find?_eq_some found, by simpa using List.find?_some found⟩
    · rintro ⟨member, rfl⟩
      cases found : graph.node? node.id with
      | none => exact absurd (List.find?_eq_none.mp found node member) (by simp)
      | some first =>
        have same : first.id = node.id := by simpa using List.find?_some found
        have listed := List.mem_of_find?_eq_some found
        rw [List.inj_on_of_nodup_map formed.apart listed member same]
  ends edge member := by
    rw [Graph.hasNode_iff, Graph.hasNode_iff]
    exact formed.live edge member
  edges := formed.edgesApart

/-! ## Stores -/

/-- The node that a record stands for has no arrow in its id. -/
def StoredNode.Arrowless (stored : StoredNode) : Prop :=
  ∀ node, loadNode stored = .ok node → SourceCanvas.Arrowless node.id

/-- The edge that a record stands for shows a containment, or has no arrow in its id. -/
def StoredEdge.Arrowed (stored : StoredEdge) : Prop :=
  ∀ ids edge, loadEdge ids stored = .ok (some edge) → edge.Arrowed

/-- A store gives no node an id with an arrow in it, and none but containment edges. -/
structure Store.Arrowless (store : Store) : Prop where
  node : ∀ id entry, store.HasNode id entry → StoredNode.Arrowless { entry with id }
  edge : ∀ id entry, store.HasEdge id entry → StoredEdge.Arrowed { entry with id }

/-- What a call writes is a record like that, whatever flow it is kept in. -/
def StoreCall.Harmless (fresh : String) : StoreCall → Prop
  | upsertNode id entry =>
    ∀ flow, StoredNode.Arrowless { entry with flow, id := Store.target fresh id }
  | upsertEdge id entry =>
    ∀ flow, StoredEdge.Arrowed { entry with flow, id := Store.target fresh id }
  | _ => True

/-- A call writes a node under an id; the row of a known one keeps its flow. -/
def StoreCall.WritesNode (fresh : String) (call : StoreCall) (id : String) (entry : NodeEntry) :
    Prop :=
  ∃ record written flow, call = .upsertNode record written ∧ id = Store.target fresh record ∧
    entry = { written with flow }

/-- A call writes an edge under an id. -/
def StoreCall.WritesEdge (fresh : String) (call : StoreCall) (id : String) (entry : EdgeEntry) :
    Prop :=
  ∃ record written flow, call = .upsertEdge record written ∧ id = Store.target fresh record ∧
    entry = { written with flow }

theorem Table.mem_of_update {α : Type} {table : Table α} {id : String} {change : α → α}
    {row : Row α} (member : row ∈ table.update id change) :
    row ∈ table ∨ row.id = id ∧ ∃ old, row.entry = change old := by
  obtain ⟨old, inside, rfl⟩ := List.mem_map.mp member
  by_cases same : old.id = id
  · rw [if_pos same]
    exact .inr ⟨same, old.entry, rfl⟩
  · rw [if_neg same]
    exact .inl inside

theorem Table.mem_of_insert {α : Type} {table : Table α} {id : String} {entry : α} {row : Row α}
    (member : row ∈ table.insert id entry) : row ∈ table ∨ row.id = id ∧ row.entry = entry := by
  rcases List.mem_append.mp member with inside | last
  · exact .inl inside
  · rw [List.mem_singleton.mp last]
    exact .inr ⟨rfl, rfl⟩

namespace Tables

variable {tables tables' : Tables} {fresh id : String}

theorem mem_of_upsertNode {entry : NodeEntry} (written : tables.upsertNode id entry = .ok tables') :
    tables'.edges = tables.edges ∧ ∀ row ∈ tables'.nodes,
      row ∈ tables.nodes ∨ row.id = id ∧ ∃ flow, row.entry = { entry with flow } := by
  rw [Tables.upsertNode] at written
  cases known : tables.nodes.has id with
  | false =>
    simp only [known, Bool.not_false, if_true] at written
    obtain ⟨-, -, written⟩ := Store.ok_of_bind written
    obtain ⟨-, -, written⟩ := Store.ok_of_bind written
    obtain ⟨-, -, written⟩ := Store.ok_of_bind written
    obtain ⟨-, -, written⟩ := Store.ok_of_bind written
    cases written
    refine ⟨rfl, fun row member => (Table.mem_of_insert member).imp_right ?_⟩
    rintro ⟨same, entry⟩
    exact ⟨same, _, entry⟩
  | true =>
    simp only [known, Bool.not_true, Bool.false_eq_true, if_false, if_true] at written
    obtain ⟨-, -, written⟩ := Store.ok_of_bind written
    obtain ⟨-, -, written⟩ := Store.ok_of_bind written
    obtain ⟨-, -, written⟩ := Store.ok_of_bind written
    cases written
    refine ⟨rfl, fun row member => ?_⟩
    have changed : row ∈ tables.nodes.update id fun old => { entry with flow := old.flow } := member
    refine (Table.mem_of_update changed).imp_right ?_
    rintro ⟨same, old, entry⟩
    exact ⟨same, _, entry⟩

theorem mem_of_upsertEdge {entry : EdgeEntry} (written : tables.upsertEdge id entry = .ok tables') :
    tables'.nodes = tables.nodes ∧ ∀ row ∈ tables'.edges,
      row ∈ tables.edges ∨ row.id = id ∧ ∃ flow, row.entry = { entry with flow } := by
  rw [Tables.upsertEdge] at written
  cases known : tables.edges.has id with
  | false =>
    simp only [known, Bool.not_false, if_true] at written
    obtain ⟨-, -, written⟩ := Store.ok_of_bind written
    obtain ⟨-, -, written⟩ := Store.ok_of_bind written
    obtain ⟨-, -, written⟩ := Store.ok_of_bind written
    cases written
    refine ⟨rfl, fun row member => (Table.mem_of_insert member).imp_right ?_⟩
    rintro ⟨same, entry⟩
    exact ⟨same, _, entry⟩
  | true =>
    simp only [known, Bool.not_true, Bool.false_eq_true, if_false, if_true] at written
    obtain ⟨-, -, written⟩ := Store.ok_of_bind written
    obtain ⟨-, -, written⟩ := Store.ok_of_bind written
    cases written
    refine ⟨rfl, fun row member => ?_⟩
    have changed : row ∈ tables.edges.update id fun old => { entry with flow := old.flow } := member
    refine (Table.mem_of_update changed).imp_right ?_
    rintro ⟨same, old, entry⟩
    exact ⟨same, _, entry⟩

/-- A row after a call was there before, or the call has written it. -/
theorem mem_of_perform {call : StoreCall} {reply : StoreReply}
    (answered : tables.perform fresh call = .ok (reply, tables')) :
    (∀ row ∈ tables'.nodes, row ∈ tables.nodes ∨ call.WritesNode fresh row.id row.entry) ∧
      ∀ row ∈ tables'.edges, row ∈ tables.edges ∨ call.WritesEdge fresh row.id row.entry := by
  cases call with
  | createFlow title owner =>
    obtain ⟨-, -, answered⟩ := Store.ok_of_bind answered
    cases answered
    exact ⟨fun _ => .inl, fun _ => .inl⟩
  | upsertNode record entry =>
    obtain ⟨stored, written, answered⟩ := Store.ok_of_bind answered
    cases answered
    obtain ⟨edges, nodes⟩ := mem_of_upsertNode written
    refine ⟨fun row member => (nodes row member).imp_right ?_, by rw [edges]; exact fun _ => .inl⟩
    rintro ⟨same, flow, entry⟩
    exact ⟨record, _, flow, rfl, same, entry⟩
  | upsertEdge record entry =>
    obtain ⟨stored, written, answered⟩ := Store.ok_of_bind answered
    cases answered
    obtain ⟨nodes, edges⟩ := mem_of_upsertEdge written
    refine ⟨by rw [nodes]; exact fun _ => .inl, fun row member => (edges row member).imp_right ?_⟩
    rintro ⟨same, flow, entry⟩
    exact ⟨record, _, flow, rfl, same, entry⟩
  | removeNode record =>
    cases answered
    exact ⟨fun _ member => .inl (List.mem_filter.mp member).1,
      fun _ member => .inl (List.mem_filter.mp member).1⟩
  | removeEdge record =>
    cases answered
    exact ⟨fun _ => .inl, fun _ member => .inl (List.mem_filter.mp member).1⟩
  | updatePreview flow code =>
    cases answered
    cases flow <;> exact ⟨fun _ => .inl, fun _ => .inl⟩
  | listNodes | listEdges | preview | close =>
    cases answered
    exact ⟨fun _ => .inl, fun _ => .inl⟩

end Tables

namespace Store

variable {store : Store} {fresh : String} {call : StoreCall}

theorem not_holds_nil {α : Type} {id : String} {entry : α} : ¬Table.Holds [] id entry := by
  rintro ⟨row, member, -⟩
  cases member

/-- A database that is closed has lost its tables, or it keeps them in a file. -/
theorem tables_close (kept : Database) :
    kept.close.tables = kept.tables ∨ kept.close.tables = {} := by
  cases kept
  · exact .inl rfl
  · exact .inr rfl
  · exact .inr rfl

theorem tables_withTables_or (kept : Database) (tables : Tables) :
    (kept.withTables tables).tables = tables ∨ (kept.withTables tables).tables = {} := by
  cases kept
  · exact .inl rfl
  · exact .inl rfl
  · exact .inr rfl

/-- What a store has after a call it had before, or the call has written it. -/
theorem has_of_perform (store : Store) (fresh : String) (call : StoreCall) :
    (∀ id entry, (store.perform fresh call).2.HasNode id entry →
      store.HasNode id entry ∨ call.WritesNode fresh id entry) ∧
    ∀ id entry, (store.perform fresh call).2.HasEdge id entry →
      store.HasEdge id entry ∨ call.WritesEdge fresh id entry := by
  cases store with
  | memory kept =>
    cases call with
    | upsertNode record written =>
      simp only [Store.perform, Memory.perform]
      split
      · refine ⟨fun id entry member => ?_, fun _ _ => .inl⟩
        rcases Catalog.mem_of_insert member with old | same
        · exact .inl old
        · obtain ⟨rfl, rfl⟩ := Prod.mk.inj same
          exact .inr ⟨record, _, _, rfl, rfl, rfl⟩
      · exact ⟨fun _ _ => .inl, fun _ _ => .inl⟩
    | upsertEdge record written =>
      simp only [Store.perform, Memory.perform]
      split
      · refine ⟨fun _ _ => .inl, fun id entry member => ?_⟩
        rcases Catalog.mem_of_insert member with old | same
        · exact .inl old
        · obtain ⟨rfl, rfl⟩ := Prod.mk.inj same
          exact .inr ⟨record, _, _, rfl, rfl, rfl⟩
      · exact ⟨fun _ _ => .inl, fun _ _ => .inl⟩
    | removeNode record =>
      exact ⟨fun _ _ member => .inl (List.mem_filter.mp member).1,
        fun _ _ member => .inl (List.mem_filter.mp member).1⟩
    | removeEdge record =>
      exact ⟨fun _ _ => .inl, fun _ _ member => .inl (List.mem_filter.mp member).1⟩
    | createFlow | listNodes | listEdges | updatePreview | preview | close =>
      exact ⟨fun _ _ => .inl, fun _ _ => .inl⟩
  | database kept =>
    by_cases closes : call = .close
    · subst closes
      rcases tables_close kept with same | same
      · simp only [Store.perform, Database.perform, HasNode, HasEdge, same]
        exact ⟨fun _ _ => .inl, fun _ _ => .inl⟩
      · simp only [Store.perform, Database.perform, HasNode, HasEdge, same]
        exact ⟨fun _ _ has => (not_holds_nil has).elim, fun _ _ has => (not_holds_nil has).elim⟩
    · rw [Store.perform, perform_of_ne_close closes]
      cases answered : kept.tables.perform fresh call with
      | error fault => exact ⟨fun _ _ => .inl, fun _ _ => .inl⟩
      | ok result =>
        obtain ⟨nodes, edges⟩ := Tables.mem_of_perform answered
        rcases tables_withTables_or kept result.2 with same | same
        · simp only [HasNode, HasEdge, same]
          constructor
          · rintro id entry ⟨row, member, rfl, rfl⟩
            exact (nodes row member).imp_left fun inside => ⟨row, inside, rfl, rfl⟩
          · rintro id entry ⟨row, member, rfl, rfl⟩
            exact (edges row member).imp_left fun inside => ⟨row, inside, rfl, rfl⟩
        · simp only [HasNode, HasEdge, same]
          exact ⟨fun _ _ has => (not_holds_nil has).elim, fun _ _ has => (not_holds_nil has).elim⟩

/-- A store answers with records that it has. -/
theorem has_of_listNodes {flow : Option String} {listed : List StoredNode}
    (answered : (store.perform fresh (.listNodes flow)).1 = .ok (.nodes listed)) :
    ∀ stored ∈ listed, store.HasNode stored.id stored.toNodeEntry := by
  cases store with
  | memory kept =>
    cases answered
    intro stored member
    obtain ⟨⟨id, entry⟩, inside, rfl⟩ := List.mem_map.mp member
    exact (List.mem_filter.mp inside).1
  | database kept =>
    cases answered
    intro stored member
    obtain ⟨row, inside, rfl⟩ := List.mem_map.mp member
    exact ⟨row, List.mem_mergeSort.mp (List.mem_filter.mp inside).1, rfl, rfl⟩

theorem has_of_listEdges {flow : Option String} {listed : List StoredEdge}
    (answered : (store.perform fresh (.listEdges flow)).1 = .ok (.edges listed)) :
    ∀ stored ∈ listed, store.HasEdge stored.id stored.toEdgeEntry := by
  cases store with
  | memory kept =>
    cases answered
    intro stored member
    obtain ⟨⟨id, entry⟩, inside, rfl⟩ := List.mem_map.mp member
    exact (List.mem_filter.mp inside).1
  | database kept =>
    cases answered
    intro stored member
    obtain ⟨row, inside, rfl⟩ := List.mem_map.mp member
    exact ⟨row, List.mem_mergeSort.mp (List.mem_filter.mp inside).1, rfl, rfl⟩

/-- A call that writes no record with an arrow leaves the store without one. -/
theorem Arrowless.perform (arrowless : store.Arrowless) (without : call.Harmless fresh) :
    (store.perform fresh call).2.Arrowless := by
  obtain ⟨nodes, edges⟩ := has_of_perform store fresh call
  constructor
  · intro id entry has
    rcases nodes id entry has with old | ⟨record, written, flow, rfl, rfl, rfl⟩
    · exact arrowless.node id entry old
    · exact without flow
  · intro id entry has
    rcases edges id entry has with old | ⟨record, written, flow, rfl, rfl, rfl⟩
    · exact arrowless.edge id entry old
    · exact without flow

end Store

/-! ## Records -/

theorem arrowless_drawRecord (supply : Supply) : Arrowless supply.drawRecord.1 :=
  Plain.arrowless (Supply.plain_idOf (by decide +kernel) _)

theorem eq_of_localId {fields : Json.Fields} {own id : String}
    (labelled : localId fields own = .ok id) : id = (givenText fields "localId").getD own := by
  unfold localId at labelled
  split at labelled
  · cases labelled
  · cases labelled
  · cases labelled
    rfl

/-- The id of a loaded node is the one its record is labelled with, or that of the record. -/
theorem id_of_loadNode {stored : StoredNode} {node : CanvasNode}
    (loaded : loadNode stored = .ok node) :
    ∃ fields, dataFields stored.data = .ok fields ∧
      node.id = (givenText fields "localId").getD stored.id := by
  rw [loadNode] at loaded
  obtain ⟨fields, read, loaded⟩ := Store.ok_of_bind loaded
  dsimp only at loaded
  obtain ⟨x, -, loaded⟩ := Store.ok_of_bind loaded
  obtain ⟨y, -, loaded⟩ := Store.ok_of_bind loaded
  obtain ⟨content, -, loaded⟩ := Store.ok_of_bind loaded
  obtain ⟨id, labelled, loaded⟩ := Store.ok_of_bind loaded
  cases loaded
  exact ⟨fields, read, eq_of_localId labelled⟩

theorem id_of_loadEdge {ids : Catalog String} {stored : StoredEdge} {edge : Edge}
    (loaded : loadEdge ids stored = .ok (some edge)) :
    ∃ fields, dataFields stored.data = .ok fields ∧
      edge.id = (givenText fields "localId").getD stored.id ∧
      edge.data = Catalog.erase fields "localId" := by
  rw [loadEdge] at loaded
  split at loaded
  · obtain ⟨fields, read, loaded⟩ := Store.ok_of_bind loaded
    obtain ⟨id, labelled, loaded⟩ := Store.ok_of_bind loaded
    cases loaded
    exact ⟨fields, read, eq_of_localId labelled, rfl⟩
  · cases loaded

/-- A label that is not empty is the id; an empty one counts as missing. -/
theorem givenText_label {fields : Json.Fields} {label id : String}
    (labelled : fields.get? "localId" = some (.string label)) :
    (givenText fields "localId").getD id = if label = "" then id else label := by
  rw [givenText, labelled]
  by_cases empty : label = ""
  · rw [if_pos empty, Option.filter_some, empty]
    rfl
  · have given : (Json.string label).isGiven = true := bne_iff_ne.mpr empty
    rw [if_neg empty, Option.filter_some, given]
    rfl

theorem givenText_ne_empty {fields : Json.Fields} {name text : String}
    (given : givenText fields name = some text) : text ≠ "" := by
  obtain ⟨value, found, rfl⟩ := Option.map_eq_some_iff.mp given
  exact Json.plainText_ne_empty (Option.filter_eq_some_iff.mp found).2

/-- A label that stands for an empty id is missing, and the record has the empty id itself. -/
theorem empty_of_label {fields : Json.Fields} {id : String}
    (empty : (givenText fields "localId").getD id = "") : id = "" := by
  cases given : givenText fields "localId" with
  | none =>
    rw [given] at empty
    exact empty
  | some label =>
    rw [given] at empty
    exact absurd empty (givenText_ne_empty given)

theorem dataFields_object {fields : Json.Fields} (given : fields ≠ []) :
    dataFields (.object fields) = .ok fields := by
  cases fields with
  | nil => exact absurd rfl given
  | cons field rest => rfl

/-- The id under which a record is written. -/
theorem arrowless_target {fresh : String} {record : Option String} (drawn : Arrowless fresh)
    (known : ∀ id, record = some id → Arrowless id) : Arrowless (Store.target fresh record) := by
  rw [Store.target]
  cases given : Text.given? record with
  | none => exact drawn
  | some id =>
    obtain ⟨text, rfl, nonempty⟩ := Option.bind_eq_some_iff.mp given
    rw [Text.nonempty?] at nonempty
    split at nonempty
    · cases nonempty
    · cases nonempty
      exact known id rfl

theorem arrowless_upsertNode {node : CanvasNode} {fresh : String} {record flow : Option String}
    (without : Arrowless node.id) (drawn : Arrowless fresh)
    (known : node.id = "" → ∀ id, record = some id → Arrowless id) :
    (StoreCall.upsertNode record (node.entry flow)).Harmless fresh := by
  intro flow' loaded load
  obtain ⟨fields, read, id⟩ := id_of_loadNode load
  cases read
  rw [id, givenText_label (by rfl)]
  split
  · next empty => exact arrowless_target drawn (known empty)
  · exact without

theorem arrowed_upsertEdge {edge : Edge} {fresh source target : String}
    {record flow : Option String} (arrowed : edge.Arrowed) (drawn : Arrowless fresh)
    (known : edge.id = "" → ∀ id, record = some id → Arrowless id) :
    (StoreCall.upsertEdge record (edge.entry flow source target)).Harmless fresh := by
  intro flow' ids loaded load
  obtain ⟨fields, read, id, data⟩ := id_of_loadEdge load
  have labelled := Catalog.get?_insert_self "localId" (.string edge.id) edge.data
  have filled : Catalog.insert "localId" (.string edge.id) edge.data ≠ [] := by
    intro empty
    rw [empty] at labelled
    cases labelled
  cases (dataFields_object filled).symm.trans read
  refine arrowed.imp (fun shows => ?_) fun without => ?_
  · -- the label is no field of an edge, so that what the edge shows is stored with it
    rw [Edge.isContainment, data, Catalog.get?_erase_ne _ (by decide),
      Catalog.get?_insert_ne (by decide)]
    exact shows
  · rw [id, givenText_label labelled]
    split
    · next empty => exact arrowless_target drawn (known empty)
    · exact without

/-! ## Sessions -/

/-- Everything but a call of the store that passes by the session. -/
def Command.isControl : Command → Bool
  | .callStore _ => false
  | _ => true

/-- Listeners give no calls of the store. -/
def Setup.ControlsOnly (setup : Setup) : Prop :=
  ∀ command, setup.Gives command → command.isControl = true

/-- What a session keeps of its graph and its store. A node without an id of its own has that of its
record, which therefore has no arrow either. -/
structure Session.Intact (session : Session) : Prop where
  listeners : session.setup.ControlsOnly
  graph : session.graph.Formed .arrowless
  store : ∀ storage, session.storage = some storage → storage.store.Arrowless
  nodeRecords : ∀ record, ("", record) ∈ session.nodeRecords → Arrowless record
  edgeRecords : ∀ record, ("", record) ∈ session.edgeRecords → Arrowless record

namespace Session.Intact

variable {session : Session} {tell : Listener}

theorem withNotices (intact : session.Intact) (notices : List Notice) :
    Intact { session with notices } := { intact with }

theorem withPhase (intact : session.Intact) (phase : Phase) : Intact { session with phase } :=
  { intact with }

theorem withText (intact : session.Intact) (text : String) : Intact { session with text } :=
  { intact with }

theorem withLog (intact : session.Intact) (log : List EventRecord) : Intact { session with log } :=
  { intact with }

theorem withSupply (intact : session.Intact) (supply : Supply) :
    Intact { session with supply } := { intact with }

theorem withGraph (intact : session.Intact) {graph : Graph} (formed : graph.Formed .arrowless) :
    Intact { session with graph } := { intact with graph := formed }

/-- An id under which a record is found for a node without an id. -/
theorem known_node (intact : session.Intact) {id : String} (empty : id = "") :
    ∀ record, session.nodeRecords.get? id = some record → Arrowless record :=
  fun record found => intact.nodeRecords record (empty ▸ Catalog.mem_of_get? found)

theorem known_edge (intact : session.Intact) {id : String} (empty : id = "") :
    ∀ record, session.edgeRecords.get? id = some record → Arrowless record :=
  fun record found => intact.edgeRecords record (empty ▸ Catalog.mem_of_get? found)

end Session.Intact

/-- A reply that a store without arrows gives; there may be no store. -/
def StoreCall.Answered (call : StoreCall) (reply : StoreReply) : Prop :=
  reply = .done ∨ ∃ store fresh, Store.Arrowless store ∧ Arrowless fresh ∧
    (store.perform fresh call).1 = .ok reply

namespace Act

/-- A planned failure leaves a store as it is. -/
theorem storage_perform (storage : Storage) (supply : Supply) (call : StoreCall) :
    (storage.perform supply call).2.1.store = storage.store ∧
        (∀ reply, (storage.perform supply call).1 ≠ .ok reply) ∨
      (storage.perform supply call).2.1.store =
          (storage.store.perform supply.drawRecord.1 call).2 ∧
        (storage.perform supply call).1 = (storage.store.perform supply.drawRecord.1 call).1 := by
  rw [Storage.perform]
  split
  · exact .inl ⟨rfl, fun _ answered => by cases answered⟩
  · exact .inr ⟨rfl, rfl⟩

theorem keeps_ask (call : StoreCall) (without : ∀ fresh, Arrowless fresh → call.Harmless fresh) :
    (ask call).Keeps Intact call.Answered := by
  intro session intact
  cases stored : session.storage with
  | none =>
    rw [on_ask_none call stored]
    refine ⟨intact, ?_⟩
    rintro _ ⟨⟩
    exact .inl rfl
  | some storage =>
    have arrowless := intact.store storage stored
    have drawn := arrowless_drawRecord session.supply
    rw [on_ask_some call stored]
    rcases storage_perform storage session.supply call with ⟨same, failed⟩ | ⟨same, answer⟩
    · refine ⟨{ intact with store := ?_ }, fun reply came => absurd came (failed reply)⟩
      rintro _ ⟨⟩
      rw [same]
      exact arrowless
    · refine ⟨{ intact with store := ?_ }, fun reply came => ?_⟩
      · rintro _ ⟨⟩
        rw [same]
        exact arrowless.perform (without _ drawn)
      · exact .inr ⟨storage.store, _, arrowless, drawn, answer.symm.trans came⟩

end Act

namespace Store

variable {store : Store} {fresh : String} {record : Option String} {reply : StoreReply}

theorem reply_upsertNode {entry : NodeEntry}
    (answered : (store.perform fresh (.upsertNode record entry)).1 = .ok reply) :
    reply = .id (target fresh record) := by
  cases store with
  | memory kept =>
    simp only [Store.perform, Memory.perform] at answered
    split at answered
    · cases answered
      rfl
    · cases answered
  | database kept =>
    obtain ⟨tables, found, -⟩ := database_perform (by simp) (Prod.ext answered rfl)
    obtain ⟨written, -, found⟩ := ok_of_bind found
    cases found
    rfl

theorem reply_upsertEdge {entry : EdgeEntry}
    (answered : (store.perform fresh (.upsertEdge record entry)).1 = .ok reply) :
    reply = .id (target fresh record) := by
  cases store with
  | memory kept =>
    simp only [Store.perform, Memory.perform] at answered
    split at answered
    · cases answered
      rfl
    · cases answered
  | database kept =>
    obtain ⟨tables, found, -⟩ := database_perform (by simp) (Prod.ext answered rfl)
    obtain ⟨written, -, found⟩ := ok_of_bind found
    cases found
    rfl

end Store

/-- The id of a record that is written for a node or an edge without an id. -/
theorem StoreCall.Answered.arrowless {call : StoreCall} {record : Option String}
    {reply : StoreReply} (answered : call.Answered reply)
    (given : ∀ (store : Store) fresh, (store.perform fresh call).1 = .ok reply →
      reply = .id (Store.target fresh record))
    (known : ∀ id, record = some id → Arrowless id) : Arrowless (reply.id?.getD "") := by
  rcases answered with rfl | ⟨store, fresh, -, drawn, answer⟩
  · exact arrowless_empty
  · rw [given store fresh answer]
    exact arrowless_target drawn known

namespace Act

/-! ## Saving -/

variable {session : Session}

theorem keeps_dropEdge (id : String) : (dropEdge id).Keeps Intact fun _ => True := by
  refine keeps_get.bind fun session intact => ?_
  split
  · exact keeps_pure trivial
  · have forgotten : Intact { session with edgeRecords := session.edgeRecords.erase id } :=
      { intact with
        edgeRecords := fun record member =>
          intact.edgeRecords record (List.mem_filter.mp member).1 }
    refine (keeps_set forgotten).bind fun _ _ => ?_
    refine (keeps_ask (.removeEdge _) fun _ _ => trivial).bind fun _ _ => ?_
    exact keeps_modify fun session intact => { intact with }

theorem keeps_dropNode (id : String) : (dropNode id).Keeps Intact fun _ => True := by
  refine keeps_get.bind fun session intact => ?_
  split
  · exact keeps_pure trivial
  · have forgotten : Intact { session with nodeRecords := session.nodeRecords.erase id } :=
      { intact with
        nodeRecords := fun record member =>
          intact.nodeRecords record (List.mem_filter.mp member).1 }
    refine (keeps_set forgotten).bind fun _ _ => ?_
    refine (keeps_ask (.removeNode _) fun _ _ => trivial).bind fun _ _ => ?_
    exact keeps_modify fun session intact => { intact with }

theorem keeps_writeNode {node : CanvasNode} (without : Arrowless node.id) :
    (writeNode node).Keeps Intact fun _ => True := by
  refine keeps_get.bind fun session intact => ?_
  split
  · exact keeps_pure trivial
  · refine (keeps_ask _ fun fresh drawn =>
      arrowless_upsertNode without drawn intact.known_node).bind fun reply answered => ?_
    refine keeps_modify fun after kept => { kept with nodeRecords := fun record member => ?_ }
    rcases Catalog.mem_of_insert member with old | new
    · exact kept.nodeRecords record old
    · obtain ⟨empty, rfl⟩ := Prod.mk.inj new
      exact answered.arrowless (fun _ _ => Store.reply_upsertNode) (intact.known_node empty.symm)

theorem keeps_writeEdge {edge : Edge} (arrowed : edge.Arrowed) :
    (writeEdge edge).Keeps Intact fun _ => True := by
  refine keeps_get.bind fun session intact => ?_
  split
  · exact keeps_pure trivial
  · split
    · refine (keeps_ask _ fun fresh drawn =>
        arrowed_upsertEdge arrowed drawn intact.known_edge).bind fun reply answered => ?_
      refine keeps_modify fun after kept => { kept with edgeRecords := fun record member => ?_ }
      rcases Catalog.mem_of_insert member with old | new
      · exact kept.edgeRecords record old
      · obtain ⟨empty, rfl⟩ := Prod.mk.inj new
        exact answered.arrowless (fun _ _ => Store.reply_upsertEdge) (intact.known_edge empty.symm)
    · exact keeps_pure trivial

theorem keeps_writeDifferences : writeDifferences.Keeps Intact fun _ => True := by
  refine keeps_get.bind fun _ _ => ?_
  refine (keeps_forM fun id _ => keeps_dropEdge id).bind fun _ _ => ?_
  refine keeps_get.bind fun _ _ => ?_
  refine (keeps_forM fun id _ => keeps_dropNode id).bind fun _ _ => ?_
  refine keeps_get.bind fun session intact => ?_
  refine (keeps_forM fun node member =>
    keeps_writeNode (intact.graph.named _ (List.mem_map_of_mem member))).bind fun _ _ => ?_
  refine keeps_get.bind fun session intact => ?_
  exact keeps_forM fun edge member => keeps_writeEdge (intact.graph.fitting edge member)

end Act

namespace Session

variable {tell : Listener}

theorem keeps_saveGraph (heard : KeepsTelling Intact tell) :
    Keeps Intact (saveGraph tell) fun _ => True := by
  refine keeps_get.bind fun session _ => ?_
  split
  · exact keeps_attempt heard (fun _ _ intact => intact.withNotices _) _ Act.keeps_writeDifferences
  · exact keeps_pure trivial

theorem keeps_saveText (heard : KeepsTelling Intact tell) (text : String) :
    Keeps Intact (saveText tell text) fun _ => True := by
  refine keeps_get.bind fun session _ => ?_
  split
  · refine keeps_attempt heard (fun _ _ intact => intact.withNotices _) _ ?_
    exact (Act.keeps_ask (.updatePreview _ _) fun _ _ => trivial).bind
      fun _ _ => Act.keeps_pure trivial
  · exact keeps_pure trivial

/-! ## Changes of the text -/

theorem keeps_notice (heard : KeepsTelling Intact tell) (notice : Notice) :
    Keeps Intact (notify tell notice) fun _ => True :=
  keeps_notify heard (fun _ _ intact => intact.withNotices _) notice

theorem keeps_computeLayout (heard : KeepsTelling Intact tell) (graph : Graph) :
    Keeps Intact (computeLayout tell graph) fun _ => True := by
  refine keeps_get.bind fun session _ => ?_
  dsimp only
  split
  · exact (keeps_notice heard _).bind fun _ _ => keeps_pure trivial
  · exact keeps_pure trivial

theorem keeps_mergeNodes (heard : KeepsTelling Intact tell) {nodes : List Node}
    (plain : ∀ node ∈ nodes, Plain node.id) :
    Keeps Intact (mergeNodes (computeLayout tell) nodes) fun _ => True := by
  have positions : Keeps Intact (newPositions (computeLayout tell) (.ofNodes nodes []))
      fun _ => True := by
    refine keeps_get.bind fun session _ => ?_
    split
    · exact keeps_pure trivial
    · exact keeps_computeLayout heard _
  refine positions.bind fun positions _ => keeps_modify fun session intact => ?_
  exact intact.withGraph (intact.graph.merge plain positions)

theorem keeps_followText (heard : KeepsTelling Intact tell) (text : String) :
    Keeps Intact (followText (computeLayout tell) tell text) fun _ => True := by
  refine (keeps_modify fun _ intact => intact.withText text).bind fun _ _ => ?_
  refine keeps_get.bind fun session _ => ?_
  split
  · exact (keeps_notice heard _).bind fun _ _ => keeps_pure trivial
  · next nodes parsed =>
    refine (keeps_mergeNodes heard (Graph.plain_of_parse parsed)).bind fun _ _ => ?_
    refine (keeps_saveGraph heard).bind fun _ _ => ?_
    refine (keeps_saveText heard text).bind fun _ _ => ?_
    exact (heard .graph).bind fun _ _ => keeps_pure trivial

theorem keeps_changeText (heard : KeepsTelling Intact tell) (text : String) :
    (changeText tell text).Keeps Intact fun _ => True := by
  refine Act.keeps_get.bind fun session _ => ?_
  split
  · exact Act.keeps_pure trivial
  · exact (Act.keeps_lift (keeps_followText heard text)).during
      (fun _ phase intact => intact.withPhase phase) _

/-! ## Changes of the graph -/

/-- No node gets the empty id when a graph is settled. -/
theorem settle_ne_empty {reclassify : Bool} {program : Program} {graph : Graph} {old new : String}
    (found : (settle reclassify program graph).2.get? old = some new) : new ≠ "" := by
  rw [settle] at found
  split at found
  · cases found
  · next parsed read =>
    rw [Graph.rekey] at found
    split at found
    · cases found
    · obtain ⟨pair, inside, -, same⟩ := (Graph.renames_newIds _ _).given old new found
      obtain ⟨start, stop, kind, id⟩ :=
        Graph.nodeId_of_parse read pair.2 (Graph.mem_matching inside).2
      rw [← same, id]
      exact nodeId_ne_empty _ _ _

theorem keeps_dropRecord (heard : KeepsTelling Intact tell) (id : String) :
    Keeps Intact (dropRecord tell id) fun _ => True := by
  refine keeps_get.bind fun session intact => ?_
  have forgotten : Intact { session with nodeRecords := session.nodeRecords.erase id } :=
    { intact with
      nodeRecords := fun record member => intact.nodeRecords record (List.mem_filter.mp member).1 }
  refine (keeps_set forgotten).bind fun _ _ => ?_
  refine keeps_attempt heard (fun _ _ intact => intact.withNotices _) _ ?_
  exact (Act.keeps_ask (.removeNode _) fun _ _ => trivial).bind fun _ _ => Act.keeps_pure trivial

theorem keeps_moveRecords (heard : KeepsTelling Intact tell) {renamed : Catalog String}
    (filled : ∀ old new, renamed.get? old = some new → new ≠ "") :
    Keeps Intact (moveRecords tell renamed) fun _ => True := by
  refine keeps_get.bind fun session _ => ?_
  refine (keeps_forM fun id _ => keeps_dropRecord heard id).bind fun _ _ => ?_
  refine keeps_modify fun after intact => { intact with nodeRecords := fun record member => ?_ }
  obtain ⟨⟨id, kept⟩, inside, same⟩ := List.mem_map.mp (Catalog.mem_of_ofList member)
  obtain ⟨empty, rfl⟩ := Prod.mk.inj same
  -- an id becomes empty only by staying so
  rcases Graph.newId_eq_or renamed id with stays | moved
  · have blank : id = "" := stays.symm.trans empty
    exact intact.nodeRecords kept (blank ▸ inside)
  · exact absurd empty (filled id _ moved)

theorem keeps_settleGraph (heard : KeepsTelling Intact tell) (program : Program) :
    Keeps Intact (settleGraph tell program) fun _ => True := by
  refine keeps_get.bind fun session intact => ?_
  refine (keeps_set (intact.withGraph (intact.graph.settle _ program))).bind fun _ _ => ?_
  split
  · exact keeps_pure trivial
  · exact (keeps_moveRecords heard fun _ _ => settle_ne_empty).bind fun _ _ => keeps_pure trivial

theorem keeps_takeText (heard : KeepsTelling Intact tell) (text : String) :
    Keeps Intact (takeText tell text) fun _ => True := by
  refine keeps_get.bind fun session intact => ?_
  split
  · exact keeps_pure trivial
  · refine (keeps_set (intact.withText text)).bind fun _ _ => ?_
    exact (keeps_saveText heard text).bind fun _ _ => heard .text

theorem keeps_writeText (heard : KeepsTelling Intact tell) :
    Keeps Intact (writeText tell) fun _ => True := by
  refine keeps_get.bind fun session _ => ?_
  split
  · exact keeps_pure trivial
  · refine (keeps_settleGraph heard _).bind fun _ _ => ?_
    exact (keeps_takeText heard _).bind fun _ _ => keeps_pure trivial

theorem keeps_changeGraph (heard : KeepsTelling Intact tell) {change : GraphChange}
    (forms : Graph.Forms .arrowless change) :
    (changeGraph tell change).Keeps Intact fun _ => True := by
  refine Act.keeps_get.bind fun session _ => ?_
  split
  · exact Act.keeps_pure trivial
  · refine Act.Keeps.during ?_ (fun _ phase intact => intact.withPhase phase) _
    refine Act.keeps_get.bind fun session intact => ?_
    refine (Act.keeps_modify fun after kept =>
      kept.withGraph (forms _ intact.graph)).bind fun _ _ => ?_
    split
    · exact Act.keeps_throw _ _
    · exact Act.keeps_pure trivial
    · refine (Act.keeps_lift (keeps_saveGraph heard)).bind fun _ _ => ?_
      exact (Act.keeps_lift (heard .graph)).bind fun _ _ => Act.keeps_pure trivial
    · refine (Act.keeps_lift (keeps_writeText heard)).bind fun _ _ => ?_
      refine (Act.keeps_lift (keeps_saveGraph heard)).bind fun _ _ => ?_
      exact (Act.keeps_lift (heard .graph)).bind fun _ _ => Act.keeps_pure trivial

/-! ## Loading -/

/-- Records that a store without arrows has. -/
def Loaded (flow : List StoredNode × List StoredEdge) : Prop :=
  (∀ stored ∈ flow.1, stored.Arrowless) ∧ ∀ stored ∈ flow.2, stored.Arrowed

theorem arrowless_of_listNodes {flow : Option String} {listed : List StoredNode}
    (answered : (StoreCall.listNodes flow).Answered (.nodes listed)) :
    ∀ stored ∈ listed, stored.Arrowless := by
  obtain ⟨store, fresh, arrowless, -, answer⟩ := answered.resolve_left nofun
  exact fun stored member => arrowless.node _ _ (Store.has_of_listNodes answer stored member)

theorem arrowed_of_listEdges {flow : Option String} {listed : List StoredEdge}
    (answered : (StoreCall.listEdges flow).Answered (.edges listed)) :
    ∀ stored ∈ listed, stored.Arrowed := by
  obtain ⟨store, fresh, arrowless, -, answer⟩ := answered.resolve_left nofun
  exact fun stored member => arrowless.edge _ _ (Store.has_of_listEdges answer stored member)

theorem keeps_readFlow (flow : Option String) : (readFlow flow).Keeps Intact Loaded := by
  refine (Act.keeps_ask (.listNodes flow) fun _ _ => trivial).bind fun nodes answered => ?_
  refine (Act.keeps_ask (.listEdges flow) fun _ _ => trivial).bind fun edges answered' => ?_
  split
  · exact Act.keeps_pure ⟨arrowless_of_listNodes answered, arrowed_of_listEdges answered'⟩
  · exact Act.keeps_pure ⟨by simp, by simp⟩

theorem keeps_takeNode {stored : StoredNode} (without : stored.Arrowless) {graph : Graph}
    (formed : graph.Formed .arrowless) :
    (takeNode graph stored).Keeps Intact (·.Formed .arrowless) := by
  rw [takeNode]
  split
  · exact Act.keeps_throw _ _
  · next node loaded =>
    have taken := without node loaded
    refine (Act.keeps_modify fun session intact =>
      { intact with nodeRecords := fun record member => ?_ }).bind
        fun _ _ => Act.keeps_pure (formed.insertNode taken)
    rcases Catalog.mem_of_insert member with old | new
    · exact intact.nodeRecords record old
    · -- a node without an id has that of its record, which is empty then
      obtain ⟨empty, rfl⟩ := Prod.mk.inj new
      obtain ⟨fields, -, id⟩ := id_of_loadNode loaded
      rw [empty_of_label (id.symm.trans empty.symm)]
      exact arrowless_empty

theorem keeps_takeEdge (ids : Catalog String) {stored : StoredEdge} (arrowed : stored.Arrowed)
    {graph : Graph} (formed : graph.Formed .arrowless) :
    (takeEdge ids graph stored).Keeps Intact (·.Formed .arrowless) := by
  rw [takeEdge]
  split
  · exact Act.keeps_throw _ _
  · exact Act.keeps_pure formed
  · next edge loaded =>
    have joined : ((graph.addEdge? edge).getD graph).Formed .arrowless := by
      cases added : graph.addEdge? edge with
      | none => exact formed
      | some graph' => exact formed.addEdge (arrowed ids edge loaded) added
    refine (Act.keeps_modify fun session intact =>
      { intact with edgeRecords := fun record member => ?_ }).bind
        fun _ _ => Act.keeps_pure joined
    rcases Catalog.mem_of_insert member with old | new
    · exact intact.edgeRecords record old
    · obtain ⟨empty, rfl⟩ := Prod.mk.inj new
      obtain ⟨fields, -, id, -⟩ := id_of_loadEdge loaded
      rw [empty_of_label (id.symm.trans empty.symm)]
      exact arrowless_empty

theorem keeps_takeRecords {flow : List StoredNode × List StoredEdge} (loaded : Loaded flow) :
    (takeRecords flow.1 flow.2).Keeps Intact (·.Formed .arrowless) := by
  refine (Act.keeps_modify fun session intact =>
    { intact with nodeRecords := by simp, edgeRecords := by simp }).bind fun _ _ => ?_
  refine (Act.keeps_foldlM Graph.formed_empty fun stored member graph formed =>
    keeps_takeNode (loaded.1 stored member) formed).bind fun graph formed => ?_
  refine Act.keeps_get.bind fun session _ => ?_
  exact Act.keeps_foldlM formed fun stored member graph formed =>
    keeps_takeEdge _ (loaded.2 stored member) formed

theorem keeps_loadFlow (heard : KeepsTelling Intact tell) :
    (loadFlow tell).Keeps Intact fun _ => True := by
  refine Act.keeps_get.bind fun session _ => ?_
  split
  · exact Act.keeps_pure trivial
  · refine (Act.keeps_lift (keeps_readFlow _).run).bind fun result fits => ?_
    split
    · exact (Act.keeps_lift (keeps_notice heard _)).bind fun _ _ => Act.keeps_pure trivial
    · next nodes edges =>
      refine Act.Keeps.during ?_ (fun _ phase intact => intact.withPhase phase) _
      refine (keeps_takeRecords (fits _ rfl)).bind fun graph formed => ?_
      refine (Act.keeps_modify fun _ intact => intact.withGraph formed).bind fun _ _ => ?_
      refine (Act.keeps_lift (keeps_writeText heard)).bind fun _ _ => ?_
      exact (Act.keeps_lift (heard .graph)).bind fun _ _ => Act.keeps_pure trivial

/-! ## Commands -/

theorem keeps_diagnose (heard : KeepsTelling Intact tell) :
    Keeps Intact (diagnose tell) fun _ => True := by
  refine keeps_get.bind fun session _ => ?_
  split
  · exact keeps_pure trivial
  · exact (keeps_notice heard _).bind fun _ _ => keeps_pure trivial

/-- A store that is opened anew has nothing. -/
theorem arrowless_of_chooseStorage {settings : Settings} {kept : Option Storage}
    (arrowless : ∀ storage, kept = some storage → storage.store.Arrowless) :
    ∀ storage, chooseStorage settings kept = .ok (some storage) → storage.store.Arrowless := by
  intro storage chosen
  cases kept with
  | some known =>
    cases chosen
    exact arrowless _ rfl
  | none =>
    have nothing {kept : Database} (blank : kept.tables = {}) :
        (Store.database kept).Arrowless := by
      constructor
      · intro id entry has
        rw [Store.HasNode, blank] at has
        exact (Store.not_holds_nil has).elim
      · intro id entry has
        rw [Store.HasEdge, blank] at has
        exact (Store.not_holds_nil has).elim
    obtain ⟨choice, -, chosen⟩ := Store.ok_of_bind chosen
    split at chosen
    · cases chosen
      exact nothing rfl
    · cases chosen
      exact nothing rfl
    · cases chosen
    · cases chosen

/-- A session that is started has no graph yet. -/
theorem intact_start {setup : Setup} {kept : Option Storage} (supply : Supply)
    (listeners : setup.ControlsOnly)
    (arrowless : ∀ storage, kept = some storage → storage.store.Arrowless) :
    (start setup kept supply).Intact := by
  rw [start]
  split
  · next storage chosen =>
    refine ⟨listeners, Graph.formed_empty, ?_, by simp, by simp⟩
    rintro found rfl
    exact arrowless_of_chooseStorage arrowless found chosen
  · exact ⟨listeners, Graph.formed_empty, nofun, by simp, by simp⟩

theorem keeps_addNode (heard : KeepsTelling Intact tell) (kind : String) (position : Point)
    (parent : Option String) : (addNode tell kind position parent).Keeps Intact fun _ => True := by
  refine Act.keeps_get.bind fun session intact => ?_
  have forms : Graph.Forms .arrowless
      (.insert (CanvasNode.create kind position parent session.supply.drawNode.1)) :=
    Graph.forms_insert (Naming.arrowless.node_of_plain _ session.supply.plain_drawNode)
  refine (Act.keeps_set (intact.withSupply _)).bind fun _ _ => ?_
  exact (keeps_changeGraph heard forms).map _

theorem keeps_connect (heard : KeepsTelling Intact tell) (source target : String)
    (sourceHandle targetHandle : Option String) :
    (connect tell source target sourceHandle targetHandle).Keeps Intact fun _ => True := by
  refine Act.keeps_get.bind fun session intact => ?_
  let edge : Edge :=
    { id := session.supply.drawEdge.1, source, sourceHandle, target, targetHandle }
  have byHand : edge.ByHand := ⟨rfl, session.supply.plain_drawEdge⟩
  have forms : Graph.Forms .arrowless (.connect edge) := Graph.forms_connect byHand
  refine (Act.keeps_set (intact.withSupply _)).bind fun _ _ => ?_
  exact (keeps_changeGraph heard forms).map _

/-- A command keeps a session intact if telling of its events does. The changes of the graph that
commands ask for all keep graphs well-formed, with the ids that are drawn for them. -/
theorem keeps_performWith (heard : KeepsTelling Intact tell) {command : Command}
    (control : command.isControl = true) :
    (performWith tell command).Keeps Intact fun _ => True := by
  refine Act.keeps_get.bind fun session intact => ?_
  cases command with
  | changeText edit => exact (keeps_changeText heard _).map _
  | addNode kind position parent => exact (keeps_addNode heard kind position _).map _
  | removeNode id => exact ((keeps_changeGraph heard (Graph.forms_remove _)).map _).map _
  | moveNode id position => exact ((keeps_changeGraph heard (Graph.forms_move _ _)).map _).map _
  | connect source target sourceHandle targetHandle =>
    exact (keeps_connect heard _ _ sourceHandle targetHandle).map _
  | disconnect id => exact ((keeps_changeGraph heard (Graph.forms_disconnect _)).map _).map _
  | update id changes =>
    refine Act.Keeps.map ?_ _
    rw [update]
    split
    · exact Act.keeps_throw _ _
    · exact (keeps_changeGraph heard (Graph.forms_update _ _)).map _
  | loadFlow => exact (keeps_loadFlow heard).map _
  | diagnose => exact (Act.keeps_lift (keeps_diagnose heard)).map _
  | restart =>
    refine (Act.keeps_set ?_).bind fun _ _ => Act.keeps_pure trivial
    exact (intact_start session.supply intact.listeners intact.store).withLog session.log
  | callStore call => cases control

/-- Telling of an event keeps a session intact, however deep commands on events are followed. -/
theorem keepsTelling_listener (depth : Nat) : KeepsTelling Intact (listener depth) := by
  have given {event : Event} {commands : List Command} {session : Session}
      (intact : session.Intact)
      (listed : session.setup.listeners.lookup event = some commands) {command : Command}
      (member : command ∈ commands) : command.isControl = true := by
    obtain ⟨before, after, same, -⟩ := List.lookup_eq_some_iff.mp listed
    refine intact.listeners command ⟨(event, commands), ?_, member⟩
    rw [same]
    exact List.mem_append_right _ (List.mem_cons_self ..)
  induction depth with
  | zero =>
    exact keepsTelling_tellWith (fun _ log intact => intact.withLog log)
      fun _ _ _ _ _ _ _ => Act.keeps_pure trivial
  | succ depth ih =>
    refine keepsTelling_tellWith (fun _ log intact => intact.withLog log)
      fun event commands session intact listed command member => ?_
    rw [perform_eq]
    exact keeps_performWith ih (given intact listed member)

/-! ## Runs -/

/-- A session stays intact over a run of commands. -/
theorem Intact.run {session : Session} (intact : session.Intact) (depth : Nat)
    {commands : List Command} (controls : ∀ command ∈ commands, command.isControl = true) :
    (commands.foldl (next depth) session).Intact := by
  induction commands generalizing session with
  | nil => exact intact
  | cons command rest ih =>
    obtain ⟨control, later⟩ := List.forall_mem_cons.mp controls
    refine ih ?_ later
    rw [next, perform_eq]
    exact (keeps_performWith (keepsTelling_listener depth) control session intact).1

end Session

end SourceCanvas
