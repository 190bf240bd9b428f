import Mathlib.Data.List.Nodup
import SourceCanvas.Proofs.StoreLaws

/-!
# Interchangeable stores

A store in memory keeps records in the order in which their ids first came, a database keeps rows in
the order of their numbers. A table lists a catalog (`Table.Lists`) where both orders are the same
one; writing, changing and removing keep it so. Tables and a memory that agree in this way
(`Tables.Agrees`) give equal answers to a call and agree again afterwards, so over a run of calls
the two stores cannot be told apart (`Store.run_agrees`).

That takes calls with all they need (`StoreCall.Complete`), since a database refuses the others, and
ids that stay in one flow, since a database does not move a row to another flow.
-/

namespace SourceCanvas

/-! ## Catalogs, written at one place -/

namespace Catalog

variable {α : Type} {entries : Catalog α} {name : String}

/-- What is written under a known name takes the place of what was there. -/
theorem insert_of_known (value : α) (apart : entries.names.Nodup) (known : name ∈ entries.names) :
    insert name value entries =
      List.map (fun entry => if entry.1 = name then (name, value) else entry) entries := by
  induction entries with
  | nil => cases known
  | cons entry rest ih =>
    obtain ⟨fresh, apart⟩ := List.nodup_cons.mp apart
    rw [insert, List.map_cons]
    by_cases same : entry.1 = name
    · -- the names behind it are other ones, so that nothing else changes
      have others : ∀ later ∈ rest,
          (if later.1 = name then (name, value) else later) = later := by
        intro later member
        refine if_neg fun again => fresh ?_
        rw [same, ← again]
        exact List.mem_map_of_mem member
      rw [if_pos same, if_pos same, List.map_congr_left others, List.map_id']
    · have behind : name ∈ names rest := by
        rcases List.mem_cons.mp known with first | behind
        · exact absurd first.symm same
        · exact behind
      rw [if_neg same, if_neg same, ih apart behind]

end Catalog

/-! ## Tables that list a catalog -/

namespace Table

variable {α : Type} {table : Table α} {entries : Catalog α} {id : String} {entry : α}

/-- The rows of a table are the entries of a catalog, in the order of their numbers. -/
structure Lists (table : Table α) (entries : Catalog α) : Prop where
  rows : List.map (fun row => (row.id, row.entry)) table = entries
  upwards : List.Pairwise (fun row later => row.number < later.number) table
  apart : entries.names.Nodup

theorem Lists.nil : Lists ([] : Table α) [] := ⟨rfl, .nil, .nil⟩

theorem Lists.ids_eq (lists : table.Lists entries) : table.ids = entries.names := by
  rw [← lists.rows, Catalog.names, List.map_map]
  rfl

theorem Lists.has_iff (lists : table.Lists entries) : table.has id = true ↔ id ∈ entries.names := by
  rw [Table.has_iff, lists.ids_eq]

theorem Lists.mem_of_row {row : Row α} (lists : table.Lists entries) (member : row ∈ table) :
    (row.id, row.entry) ∈ entries :=
  lists.rows ▸ List.mem_map_of_mem member

/-- Rows that are numbered upwards are in order. -/
theorem Lists.inOrder_eq (lists : table.Lists entries) : table.inOrder = table := by
  refine List.mergeSort_of_pairwise (lists.upwards.imp ?_)
  intro row later before
  exact decide_eq_true (Nat.le_of_lt before)

/-- The number for a new row is above all that are in use. -/
theorem number_lt_next {row : Row α} (member : row ∈ table) : row.number < table.nextNumber := by
  have above (start : Nat) (rows : List (Row α)) :
      start ≤ rows.foldl (fun number row => max number row.number) start ∧
        ∀ row ∈ rows, row.number ≤ rows.foldl (fun number row => max number row.number) start := by
    induction rows generalizing start with
    | nil => simp
    | cons first rest ih =>
      obtain ⟨most, each⟩ := ih (max start first.number)
      refine ⟨Nat.le_trans (Nat.le_max_left ..) most, ?_⟩
      intro row member
      rcases List.mem_cons.mp member with rfl | behind
      · exact Nat.le_trans (Nat.le_max_right ..) most
      · exact each row behind
  exact Nat.lt_succ_of_le ((above 0 table).2 row member)

theorem Lists.insert (lists : table.Lists entries) (entry : α) (fresh : id ∉ entries.names) :
    (table.insert id entry).Lists (Catalog.insert id entry entries) where
  rows := by
    rw [Table.insert, List.map_append, lists.rows, Catalog.insert_of_fresh entry fresh]
    rfl
  upwards := by
    refine List.pairwise_append.mpr ⟨lists.upwards, List.pairwise_singleton .., ?_⟩
    intro row member later last
    rw [List.mem_singleton.mp last]
    exact number_lt_next member
  apart := Catalog.nodup_names_insert lists.apart

theorem Lists.update {change : α → α} (lists : table.Lists entries) (known : id ∈ entries.names)
    (constant : ∀ old, (id, old) ∈ entries → change old = entry) :
    (table.update id change).Lists (Catalog.insert id entry entries) where
  rows := by
    rw [Catalog.insert_of_known entry lists.apart known, ← lists.rows, Table.update, List.map_map,
      List.map_map]
    refine List.map_congr_left fun row member => ?_
    by_cases same : row.id = id
    · simp [same, constant row.entry (same ▸ lists.mem_of_row member)]
    · simp [same]
  upwards := by
    refine List.pairwise_map.mpr (lists.upwards.imp fun {row later} before => ?_)
    have number (row : Row α) : (if row.id = id then { row with entry := change row.entry }
        else row).number = row.number := by split <;> rfl
    rw [number, number]
    exact before
  apart := Catalog.nodup_names_insert lists.apart

theorem Lists.filter {keep : Row α → Bool} {keep' : String × α → Bool} (lists : table.Lists entries)
    (same : ∀ row ∈ table, keep row = keep' (row.id, row.entry)) :
    Lists (List.filter keep table) (List.filter keep' entries) where
  rows := by
    rw [← lists.rows, List.filter_map, List.filter_congr same]
    rfl
  upwards := lists.upwards.sublist List.filter_sublist
  apart := Catalog.nodup_names_filter keep' lists.apart

/-- What a listing of a table shows is what one of the catalog shows. -/
theorem Lists.listed {β : Type} {keep : Row α → Bool} {keep' : String × α → Bool}
    {shown : Row α → β} {shown' : String × α → β} (lists : table.Lists entries)
    (same : ∀ row ∈ table, keep row = keep' (row.id, row.entry))
    (same' : ∀ row, shown row = shown' (row.id, row.entry)) :
    (table.inOrder.filter keep).map shown = (List.filter keep' entries).map shown' := by
  rw [lists.inOrder_eq, ← (lists.filter same).rows, List.map_map]
  exact List.map_congr_left fun row _ => same' row

end Table

/-! ## Calls -/

namespace StoreCall

/-- A call has all that a database needs: a text where one has to be there, objects as data and
numbers as places. -/
def Complete : StoreCall → Prop
  | createFlow title _ => title.isSome
  | upsertNode _ entry => entry.flow.isSome ∧ entry.kind.isSome ∧
      (∃ fields, entry.data = .object fields) ∧
      (Tables.number? entry.x).isSome ∧ (Tables.number? entry.y).isSome
  | upsertEdge _ entry => entry.flow.isSome ∧ entry.source.isSome ∧ entry.target.isSome ∧
      ∃ fields, entry.data = .object fields
  | updatePreview flow _ => flow.isSome
  | close => False
  | removeNode _ | listNodes _ | removeEdge _ | listEdges _ | preview _ => True

/-- The id of the node that a call writes, with the flow it is written to. -/
def nodePlace? (fresh : String) : StoreCall → Option (String × Option String)
  | upsertNode id entry => some (Store.target fresh id, entry.flow)
  | _ => none

/-- The id of the edge that a call writes, with the flow it is written to. -/
def edgePlace? (fresh : String) : StoreCall → Option (String × Option String)
  | upsertEdge id entry => some (Store.target fresh id, entry.flow)
  | _ => none

end StoreCall

/-! ## Tables and a memory that agree -/

namespace Tables

variable {tables : Tables} {memory : Memory} {fresh id : String}

/-- Tables and a memory hold the same records in the same order and the same texts of flows; no
record of them lacks what a database needs to find it. -/
structure Agrees (tables : Tables) (memory : Memory) : Prop where
  nodes : tables.nodes.Lists memory.nodes
  edges : tables.edges.Lists memory.edges
  placed : ∀ entry ∈ memory.nodes, entry.2.flow.isSome
  joined : ∀ entry ∈ memory.edges,
    entry.2.flow.isSome ∧ entry.2.source.isSome ∧ entry.2.target.isSome
  texts : ∀ flow, tables.preview flow = (memory.previews.lookup flow).join

theorem agrees_empty : Agrees {} {} where
  nodes := .nil
  edges := .nil
  placed := by simp
  joined := by simp
  texts _ := rfl

/-- A column with a value is compared by that value. -/
theorem equals_of_isSome {value other : Option String} (given : value.isSome) :
    equals value other = decide (value = other) := by
  cases value with
  | none => cases given
  | some text => exact beq_eq_decide (some text) other

/-- A value that is there is not refused. -/
theorem need_of_isSome {α : Type} {value : Option α} (table column : String)
    (given : value.isSome) : need table column value = .ok () := by
  cases value with
  | none => cases given
  | some _ => rfl

/-- A memory takes data that is an object. -/
theorem checkData_object (fields : Json.Fields) : Memory.checkData (.object fields) = .ok () := rfl

theorem Agrees.upsertNode {record : Option String} {entry : NodeEntry}
    (agrees : tables.Agrees memory) (complete : (StoreCall.upsertNode record entry).Complete)
    (sameFlow : ∀ old, (id, old) ∈ memory.nodes → old.flow = entry.flow) :
    ∃ tables', tables.upsertNode id entry = .ok tables' ∧
      tables'.Agrees { memory with nodes := Catalog.insert id entry memory.nodes } := by
  obtain ⟨flow, kind, -, x, y⟩ := complete
  have placed : ∀ written ∈ Catalog.insert id entry memory.nodes, written.2.flow.isSome := by
    intro written member
    rcases Catalog.mem_of_insert member with old | rfl
    · exact agrees.placed written old
    · exact flow
  by_cases known : id ∈ memory.nodes.names
  · -- the row is changed in its place, and keeps a flow that is the one it is written with
    refine ⟨{ tables with
      nodes := tables.nodes.update id fun row => { entry with flow := row.flow } }, ?_, ?_⟩
    · rw [Tables.upsertNode, agrees.nodes.has_iff.mpr known, need_of_isSome _ _ kind,
        need_of_isSome _ _ x, need_of_isSome _ _ y]
      rfl
    · have constant (old : NodeEntry) (member : (id, old) ∈ memory.nodes) :
          { entry with flow := old.flow } = entry := by
        rw [sameFlow old member]
      exact ⟨agrees.nodes.update known constant, agrees.edges, placed, agrees.joined, agrees.texts⟩
  · have missing : tables.nodes.has id = false := by
      rw [← Bool.not_eq_true, agrees.nodes.has_iff]
      exact known
    refine ⟨{ tables with nodes := tables.nodes.insert id entry }, ?_, ?_⟩
    · rw [Tables.upsertNode, missing, need_of_isSome _ _ flow, need_of_isSome _ _ kind,
        need_of_isSome _ _ x, need_of_isSome _ _ y]
      rfl
    · exact ⟨agrees.nodes.insert entry known, agrees.edges, placed, agrees.joined, agrees.texts⟩

theorem Agrees.upsertEdge {record : Option String} {entry : EdgeEntry}
    (agrees : tables.Agrees memory) (complete : (StoreCall.upsertEdge record entry).Complete)
    (sameFlow : ∀ old, (id, old) ∈ memory.edges → old.flow = entry.flow) :
    ∃ tables', tables.upsertEdge id entry = .ok tables' ∧
      tables'.Agrees { memory with edges := Catalog.insert id entry memory.edges } := by
  obtain ⟨flow, source, target, -⟩ := complete
  have joined : ∀ written ∈ Catalog.insert id entry memory.edges,
      written.2.flow.isSome ∧ written.2.source.isSome ∧ written.2.target.isSome := by
    intro written member
    rcases Catalog.mem_of_insert member with old | rfl
    · exact agrees.joined written old
    · exact ⟨flow, source, target⟩
  by_cases known : id ∈ memory.edges.names
  · refine ⟨{ tables with
      edges := tables.edges.update id fun row => { entry with flow := row.flow } }, ?_, ?_⟩
    · rw [Tables.upsertEdge, agrees.edges.has_iff.mpr known, need_of_isSome _ _ source,
        need_of_isSome _ _ target]
      rfl
    · have constant (old : EdgeEntry) (member : (id, old) ∈ memory.edges) :
          { entry with flow := old.flow } = entry := by
        rw [sameFlow old member]
      exact ⟨agrees.nodes, agrees.edges.update known constant, agrees.placed, joined, agrees.texts⟩
  · have missing : tables.edges.has id = false := by
      rw [← Bool.not_eq_true, agrees.edges.has_iff]
      exact known
    refine ⟨{ tables with edges := tables.edges.insert id entry }, ?_, ?_⟩
    · rw [Tables.upsertEdge, missing, need_of_isSome _ _ flow, need_of_isSome _ _ source,
        need_of_isSome _ _ target]
      rfl
    · exact ⟨agrees.nodes, agrees.edges.insert entry known, agrees.placed, joined, agrees.texts⟩

/-- Tables and a memory lose the same edges with a node: no end of an edge is missing. -/
theorem Agrees.removeNode (agrees : tables.Agrees memory) (record : Option String) :
    (tables.removeNode record).Agrees (memory.removeNode record) where
  nodes := agrees.nodes.filter fun _ _ => rfl
  edges := by
    refine agrees.edges.filter fun row member => ?_
    obtain ⟨-, source, target⟩ := agrees.joined _ (agrees.edges.mem_of_row member)
    rw [equals_of_isSome source, equals_of_isSome target]
    simp
  placed entry member := agrees.placed entry (List.mem_filter.mp member).1
  joined entry member := agrees.joined entry (List.mem_filter.mp member).1
  texts := agrees.texts

theorem Agrees.removeEdge (agrees : tables.Agrees memory) (record : Option String) :
    (tables.removeEdge record).Agrees (memory.removeEdge record) where
  nodes := agrees.nodes
  edges := agrees.edges.filter fun _ _ => rfl
  placed := agrees.placed
  joined entry member := agrees.joined entry (List.mem_filter.mp member).1
  texts := agrees.texts

theorem Agrees.nodesOf_eq (agrees : tables.Agrees memory) (flow : Option String) :
    tables.nodesOf flow = memory.nodesOf flow := by
  refine agrees.nodes.listed (fun row member => ?_) fun _ => rfl
  exact equals_of_isSome (agrees.placed _ (agrees.nodes.mem_of_row member))

theorem Agrees.edgesOf_eq (agrees : tables.Agrees memory) (flow : Option String) :
    tables.edgesOf flow = memory.edgesOf flow := by
  refine agrees.edges.listed (fun row member => ?_) fun _ => rfl
  exact equals_of_isSome (agrees.joined _ (agrees.edges.mem_of_row member)).1

/-- The text of a flow after a row was added: what was found before is found first. -/
theorem preview_insert (tables : Tables) (id : String) (code flow : Option String) :
    ({ tables with flows := tables.flows.insert id code } : Tables).preview flow =
      ((tables.flows.find? fun row => some row.id == flow).or
        (if some id = flow then some ⟨tables.flows.nextNumber, id, code⟩ else none)).bind
          (·.entry) := by
  rw [preview, Table.insert, List.find?_append, List.find?_singleton]
  simp only [beq_iff_eq]

/-- A new flow has no text, which is what an unknown flow has, too. -/
theorem Agrees.createFlow (agrees : tables.Agrees memory) (fresh : String) :
    ({ tables with flows := tables.flows.insert fresh none } : Tables).Agrees memory where
  nodes := agrees.nodes
  edges := agrees.edges
  placed := agrees.placed
  joined := agrees.joined
  texts flow := by
    rw [preview_insert, ← agrees.texts, preview]
    cases tables.flows.find? fun row => some row.id == flow with
    | some row => rfl
    | none => split <;> rfl

/-- What a known flow's text is after it was changed. -/
theorem preview_update (tables : Tables) {id : String} (known : tables.flows.has id = true)
    (code flow : Option String) :
    ({ tables with flows := tables.flows.update id fun _ => code } : Tables).preview flow =
      if flow = some id then code else tables.preview flow := by
  have same (row : Row (Option String)) :
      (if row.id = id then { row with entry := code } else row).id = row.id := by split <;> rfl
  simp only [preview, Table.update, List.find?_map, Function.comp_def, same]
  by_cases mine : flow = some id
  · obtain ⟨row, member, named⟩ := List.any_eq_true.mp known
    cases found : tables.flows.find? fun row => some row.id == flow with
    | none =>
      have apart := List.find?_eq_none.mp found row member
      rw [mine, beq_iff_eq, Option.some.injEq] at apart
      exact absurd (beq_iff_eq.mp named) apart
    | some first =>
      have its := List.find?_some found
      rw [mine, beq_iff_eq, Option.some.injEq] at its
      simp [mine, its]
  · rw [if_neg mine]
    cases found : tables.flows.find? fun row => some row.id == flow with
    | none => rfl
    | some first =>
      have its := List.find?_some found
      rw [beq_iff_eq] at its
      have other : first.id ≠ id := fun same => mine (by rw [← its, same])
      simp [other]

theorem Agrees.updatePreview (agrees : tables.Agrees memory) (id : String) (code : Option String) :
    (tables.updatePreview (some id) code).Agrees
      { memory with previews := (some id, code) :: memory.previews } := by
  have texts (flow : Option String) : (tables.updatePreview (some id) code).preview flow =
      if flow = some id then code else tables.preview flow := by
    rw [Tables.updatePreview]
    by_cases known : tables.flows.has id = true
    · rw [if_pos known]
      exact preview_update tables known code flow
    · rw [if_neg known, preview_insert, preview]
      by_cases mine : flow = some id
      · have missing : (tables.flows.find? fun row => some row.id == flow) = none := by
          rw [List.find?_eq_none]
          intro row member
          rw [mine, beq_iff_eq, Option.some.injEq]
          exact fun same => known (List.any_eq_true.mpr ⟨row, member, beq_iff_eq.mpr same⟩)
        rw [missing, if_pos mine, if_pos mine.symm]
        rfl
      · rw [if_neg mine, if_neg (Ne.symm mine), Option.or_none]
  refine ⟨agrees.nodes, agrees.edges, agrees.placed, agrees.joined, fun flow => ?_⟩
  rw [texts, agrees.texts, List.lookup_cons]
  by_cases mine : flow = some id
  · simp [mine]
  · have other : (flow == some id) = false := beq_eq_false_iff_ne.mpr mine
    simp [mine, other]

/-! ## One call -/

/-- **A complete call** is answered by both, with the same answer, and both agree afterwards. A
record that the memory has then was there before, or it is the one that is written. -/
theorem Agrees.perform {call : StoreCall} (agrees : tables.Agrees memory) (fresh : String)
    (complete : call.Complete)
    (nodeFlow : ∀ place ∈ call.nodePlace? fresh, ∀ old, (place.1, old) ∈ memory.nodes →
      old.flow = place.2)
    (edgeFlow : ∀ place ∈ call.edgePlace? fresh, ∀ old, (place.1, old) ∈ memory.edges →
      old.flow = place.2) :
    ∃ reply tables' memory', tables.perform fresh call = .ok (reply, tables') ∧
      memory.perform fresh call = (.ok reply, memory') ∧ tables'.Agrees memory' ∧
      (∀ entry ∈ memory'.nodes, entry ∈ memory.nodes ∨
        (entry.1, entry.2.flow) ∈ call.nodePlace? fresh) ∧
      ∀ entry ∈ memory'.edges, entry ∈ memory.edges ∨
        (entry.1, entry.2.flow) ∈ call.edgePlace? fresh := by
  cases call with
  | createFlow title owner =>
    refine ⟨_, _, memory, ?_, rfl, agrees.createFlow fresh, fun _ => .inl, fun _ => .inl⟩
    rw [Tables.perform, need_of_isSome _ _ complete]
    rfl
  | upsertNode record entry =>
    obtain ⟨tables', written, agrees'⟩ :=
      agrees.upsertNode complete fun old => nodeFlow (_, entry.flow) rfl old
    obtain ⟨-, -, ⟨fields, data⟩, -⟩ := complete
    refine ⟨.id (Store.target fresh record), tables', _, ?_, ?_, agrees', ?_, fun _ => .inl⟩
    · show (do return (_, ← tables.upsertNode (Store.target fresh record) entry)) = _
      rw [written]
      rfl
    · rw [Memory.perform, data, checkData_object]
      rfl
    · intro stored member
      rcases Catalog.mem_of_insert member with old | rfl
      · exact .inl old
      · exact .inr rfl
  | upsertEdge record entry =>
    obtain ⟨tables', written, agrees'⟩ :=
      agrees.upsertEdge complete fun old => edgeFlow (_, entry.flow) rfl old
    obtain ⟨-, -, -, fields, data⟩ := complete
    refine ⟨.id (Store.target fresh record), tables', _, ?_, ?_, agrees', fun _ => .inl, ?_⟩
    · show (do return (_, ← tables.upsertEdge (Store.target fresh record) entry)) = _
      rw [written]
      rfl
    · rw [Memory.perform, data, checkData_object]
      rfl
    · intro stored member
      rcases Catalog.mem_of_insert member with old | rfl
      · exact .inl old
      · exact .inr rfl
  | removeNode record =>
    exact ⟨_, _, _, rfl, rfl, agrees.removeNode record,
      fun _ member => .inl (List.mem_filter.mp member).1,
      fun _ member => .inl (List.mem_filter.mp member).1⟩
  | removeEdge record =>
    exact ⟨_, _, _, rfl, rfl, agrees.removeEdge record, fun _ => .inl,
      fun _ member => .inl (List.mem_filter.mp member).1⟩
  | listNodes flow =>
    refine ⟨_, _, memory, rfl, ?_, agrees, fun _ => .inl, fun _ => .inl⟩
    rw [Memory.perform, agrees.nodesOf_eq]
  | listEdges flow =>
    refine ⟨_, _, memory, rfl, ?_, agrees, fun _ => .inl, fun _ => .inl⟩
    rw [Memory.perform, agrees.edgesOf_eq]
  | updatePreview flow code =>
    obtain ⟨id, rfl⟩ := Option.isSome_iff_exists.mp complete
    exact ⟨_, _, _, rfl, rfl, agrees.updatePreview id code, fun _ => .inl, fun _ => .inl⟩
  | preview flow =>
    refine ⟨_, _, memory, rfl, ?_, agrees, fun _ => .inl, fun _ => .inl⟩
    rw [Memory.perform, agrees.texts]
  | close => exact complete.elim

end Tables

/-! ## Runs -/

/-- No id is given with two flows. -/
def OneFlow (places : List (String × Option String)) : Prop :=
  ∀ place ∈ places, ∀ place' ∈ places, place.1 = place'.1 → place.2 = place'.2

theorem OneFlow.mono {places fewer : List (String × Option String)} (one : OneFlow places)
    (among : fewer ⊆ places) : OneFlow fewer :=
  fun place member place' member' => one place (among member) place' (among member')

namespace Store

/-- Calls, each with the id to be used where it needs a fresh one. -/
abbrev Asked := List (String × StoreCall)

/-- The ids under which calls write nodes, with their flows. -/
def nodePlaces (asked : Asked) : List (String × Option String) :=
  asked.filterMap fun ask => ask.2.nodePlace? ask.1

/-- The ids under which calls write edges, with their flows. -/
def edgePlaces (asked : Asked) : List (String × Option String) :=
  asked.filterMap fun ask => ask.2.edgePlace? ask.1

/-- Answers one call after the other. -/
def run (store : Store) : Asked → List (Except Fault StoreReply) × Store
  | [] => ([], store)
  | (fresh, call) :: rest =>
    let (reply, store) := store.perform fresh call
    let (replies, store) := store.run rest
    (reply :: replies, store)

/-- No edge touches a node. -/
def Detached (store : Store) (node : String) : Prop :=
  ∀ id entry, store.HasEdge id entry → entry.source ≠ some node ∧ entry.target ≠ some node

theorem run_append (store : Store) (asked later : Asked) :
    (store.run (asked ++ later)).2 = ((store.run asked).2.run later).2 := by
  induction asked generalizing store with
  | nil => rfl
  | cons ask rest ih => exact ih (store.perform ask.1 ask.2).2

/-- After a node was removed no edge touches it, whatever flow it belongs to. -/
theorem detached_removeNode (store : Store) (fresh node : String) :
    (store.perform fresh (.removeNode (some node))).2.Detached node := by
  intro id entry has
  cases store with
  | memory kept =>
    have kept' := (List.mem_filter.mp has).2
    simpa using kept'
  | database kept =>
    obtain ⟨row, member, -, rfl⟩ := has
    cases kept with
    | closed => cases member
    | inFile tables | opened tables =>
      have kept' := (List.mem_filter.mp member).2
      rw [Bool.and_eq_true, Bool.not_eq_true', Bool.not_eq_true', ← Bool.not_eq_true,
        ← Bool.not_eq_true, equals_some_iff, equals_some_iff] at kept'
      exact kept'

/-- A database that is open answers a call as its tables do. -/
theorem perform_database {kept : Database} {call : StoreCall} {fresh : String} {reply : StoreReply}
    {tables : Tables} (open_ : call ≠ .close)
    (answered : kept.tables.perform fresh call = .ok (reply, tables)) :
    (database kept).perform fresh call = (.ok reply, database (kept.withTables tables)) := by
  rw [Store.perform, perform_of_ne_close open_, answered]

/-- The places of what is there after a call, and of the calls to come, are among those before. -/
theorem places_subset {α : Type} {flow : α → Option String} {entries entries' : Catalog α}
    {place? : Option (String × Option String)} (later : List (String × Option String))
    (grown : ∀ entry ∈ entries', entry ∈ entries ∨ (entry.1, flow entry.2) ∈ place?) :
    List.map (fun entry => (entry.1, flow entry.2)) entries' ++ later ⊆
      List.map (fun entry => (entry.1, flow entry.2)) entries ++ (place?.toList ++ later) := by
  intro place member
  rcases List.mem_append.mp member with now | after
  · obtain ⟨entry, inside, rfl⟩ := List.mem_map.mp now
    rcases grown entry inside with old | new
    · exact List.mem_append_left _ (List.mem_map_of_mem old)
    · exact List.mem_append_right _ (List.mem_append_left _ (Option.mem_toList.mpr new))
  · exact List.mem_append_right _ (List.mem_append_right _ after)

theorem filterMap_cons_toList {α β : Type} (f : α → Option β) (first : α) (rest : List α) :
    (first :: rest).filterMap f = (f first).toList ++ rest.filterMap f := by
  rw [List.filterMap_cons]
  cases f first <;> rfl

/-- Runs from tables and a memory that agree, where the records that are there are in the flows to
which the calls write them. -/
theorem run_of_agrees {kept : Database} {known : Memory} {asked : Asked} (opened : kept ≠ .closed)
    (agrees : kept.tables.Agrees known) (complete : ∀ ask ∈ asked, ask.2.Complete)
    (nodes : OneFlow
      (List.map (fun entry => (entry.1, entry.2.flow)) known.nodes ++ nodePlaces asked))
    (edges : OneFlow
      (List.map (fun entry => (entry.1, entry.2.flow)) known.edges ++ edgePlaces asked)) :
    ((memory known).run asked).1 = ((database kept).run asked).1 ∧
      ∀ reply ∈ ((memory known).run asked).1, ∃ answer, reply = .ok answer := by
  induction asked generalizing kept known with
  | nil => exact ⟨rfl, by simp [run]⟩
  | cons ask rest ih =>
    obtain ⟨fresh, call⟩ := ask
    have whole : call.Complete := complete (fresh, call) (List.mem_cons_self ..)
    rw [nodePlaces, filterMap_cons_toList] at nodes
    rw [edgePlaces, filterMap_cons_toList] at edges
    obtain ⟨reply, tables, known', answered, answered', agrees', nodes', edges'⟩ :=
      agrees.perform fresh whole
        (fun place written old member => nodes (place.1, old.flow)
          (List.mem_append_left _ (List.mem_map_of_mem member)) place
          (List.mem_append_right _ (List.mem_append_left _ (Option.mem_toList.mpr written))) rfl)
        (fun place written old member => edges (place.1, old.flow)
          (List.mem_append_left _ (List.mem_map_of_mem member)) place
          (List.mem_append_right _ (List.mem_append_left _ (Option.mem_toList.mpr written))) rfl)
    have open_ : call ≠ .close := by
      rintro rfl
      exact whole
    obtain ⟨same, opened'⟩ := tables_withTables tables opened
    obtain ⟨equal, fine⟩ := ih opened' (same.symm ▸ agrees')
      (fun ask member => complete ask (List.mem_cons_of_mem _ member))
      (nodes.mono (places_subset _ nodes')) (edges.mono (places_subset _ edges'))
    have inMemory : (memory known).perform fresh call = (.ok reply, memory known') := by
      rw [Store.perform, answered']
    rw [run, run, inMemory, perform_database open_ answered]
    refine ⟨congrArg (_ :: ·) equal, ?_⟩
    intro other member
    rcases List.mem_cons.mp member with rfl | behind
    · exact ⟨reply, rfl⟩
    · exact fine other behind

/-- **A store in memory and a database are interchangeable**: asked for the same with the same fresh
ids, both give the same answers, none of which is a failure; and once a node is removed, no edge of
any flow in either of them touches it. -/
theorem run_agrees {kept : Database} {asked : Asked} (opened : kept ≠ .closed)
    (blank : kept.tables = {}) (complete : ∀ ask ∈ asked, ask.2.Complete)
    (nodes : OneFlow (nodePlaces asked)) (edges : OneFlow (edgePlaces asked)) :
    ((memory {}).run asked).1 = ((database kept).run asked).1 ∧
      (∀ reply ∈ ((memory {}).run asked).1, ∃ answer, reply = .ok answer) ∧
      ∀ before fresh node after, asked = before ++ (fresh, .removeNode (some node)) :: after →
        ((memory {}).run (before ++ [(fresh, .removeNode (some node))])).2.Detached node ∧
          ((database kept).run (before ++ [(fresh, .removeNode (some node))])).2.Detached node := by
  have agrees : kept.tables.Agrees {} := blank.symm ▸ Tables.agrees_empty
  obtain ⟨equal, fine⟩ := run_of_agrees opened agrees complete nodes edges
  refine ⟨equal, fine, fun before fresh node after _ => ?_⟩
  rw [run_append, run_append]
  exact ⟨detached_removeNode _ fresh node, detached_removeNode _ fresh node⟩

/-- A run in which records are written, changed, removed and listed. -/
def visit : Asked :=
  let node : NodeEntry :=
    { flow := some "flow", kind := some "import", data := .object [], x := some 0, y := some 0 }
  [("flow", .createFlow (some "title") none),
    ("1", .upsertNode none node), ("2", .upsertNode (some "") node),
    ("3", .upsertNode (some "1") { node with kind := some "export" }),
    ("4", .upsertEdge none ⟨some "flow", some "1", none, some "2", none, .object []⟩),
    ("5", .updatePreview (some "flow") (some "text")), ("6", .preview (some "flow")),
    ("7", .removeNode (some "2")), ("8", .listNodes (some "flow")), ("9", .listEdges (some "flow"))]

theorem run_agrees_visit :
    ((memory {}).run visit).1 = ((database (.inFile {})).run visit).1 ∧
      (∀ reply ∈ ((memory {}).run visit).1, ∃ answer, reply = .ok answer) ∧
      ∀ before fresh node after, visit = before ++ (fresh, .removeNode (some node)) :: after →
        ((memory {}).run (before ++ [(fresh, .removeNode (some node))])).2.Detached node ∧
          ((database (.inFile {})).run (before ++ [(fresh, .removeNode (some node))])).2.Detached
            node := by
  have zero : (Tables.number? (some 0)).isSome = true := by decide
  have complete : ∀ ask ∈ visit, ask.2.Complete := by
    simp [visit, StoreCall.Complete, zero]
  have nodes : OneFlow (nodePlaces visit) := by
    unfold OneFlow
    decide
  have edges : OneFlow (edgePlaces visit) := by
    unfold OneFlow
    decide
  exact run_agrees (by simp) rfl complete nodes edges

end Store

end SourceCanvas
