import Mathlib.Data.List.Nodup
import SourceCanvas.Store.Basic

/-!
# What a store holds

A store in memory and a database keep their records differently, but what they hold is the same: a
node or an edge under an id (`Store.HasNode`, `Store.HasEdge`). The laws say what the store holds
after each call in terms of what it held before, for both kinds of store at once. They need the ids
of records to be apart, which all calls preserve (`Store.Tidy`).
-/

namespace SourceCanvas

/-! ## Catalogs and tables as sets -/

namespace Catalog

variable {α : Type} {entries : Catalog α} {name other : String} {value value' : α}

theorem mem_insert (apart : entries.names.Nodup) :
    (other, value') ∈ insert name value entries ↔
      other = name ∧ value' = value ∨ other ≠ name ∧ (other, value') ∈ entries := by
  induction entries with
  | nil => simp [insert]
  | cons entry rest ih =>
    obtain ⟨key, kept⟩ := entry
    obtain ⟨fresh, apart⟩ := List.nodup_cons.mp apart
    have absent (found : α) : (key, found) ∉ rest := by
      intro member
      have known : (key, found).1 ∈ List.map Prod.fst rest := List.mem_map_of_mem member
      exact fresh known
    rw [insert]
    split
    · next same =>
      cases same
      simp only [List.mem_cons, Prod.mk.injEq]
      by_cases equal : other = key
      · cases equal
        simp [absent]
      · simp [equal]
    · next different =>
      simp only [List.mem_cons, Prod.mk.injEq, ih apart]
      by_cases equal : other = key
      · cases equal
        simp [absent, different]
      · simp [equal]

theorem eq_of_mem (apart : entries.names.Nodup) (member : (name, value) ∈ entries)
    (member' : (name, value') ∈ entries) : value = value' := by
  induction entries with
  | nil => cases member
  | cons entry rest ih =>
    obtain ⟨fresh, apart⟩ := List.nodup_cons.mp apart
    have known {found : α} (inside : (name, found) ∈ rest) : name ∈ List.map Prod.fst rest :=
      List.mem_map_of_mem inside
    rcases List.mem_cons.mp member with rfl | inside
    · rcases List.mem_cons.mp member' with same | inside'
      · exact (Prod.mk.inj same).2.symm
      · exact absurd (known inside') fresh
    · rcases List.mem_cons.mp member' with rfl | inside'
      · exact absurd (known inside) fresh
      · exact ih apart inside inside'

theorem nodup_names_filter (keep : String × α → Bool) (apart : entries.names.Nodup) :
    (names (List.filter keep entries)).Nodup :=
  apart.sublist (List.filter_sublist.map _)

end Catalog

namespace Table

variable {α : Type} {table : Table α} {id other : String} {entry entry' : α}

/-- A table has an entry under an id. -/
def Holds (table : Table α) (id : String) (entry : α) : Prop :=
  ∃ row ∈ table, row.id = id ∧ row.entry = entry

/-- The ids of the rows, in any order. -/
def ids (table : Table α) : List String := List.map (·.id) table

theorem has_iff : table.has id = true ↔ id ∈ table.ids := by
  simp [has, ids]

theorem Holds.has (holds : table.Holds id entry) : table.has id = true := by
  obtain ⟨row, member, rfl, -⟩ := holds
  exact has_iff.mpr (List.mem_map_of_mem member)

theorem exists_holds (has : table.has id = true) : ∃ entry, table.Holds id entry := by
  obtain ⟨row, member, same⟩ := List.any_eq_true.mp has
  exact ⟨row.entry, row, member, by simpa using same, rfl⟩

theorem Holds.unique (apart : table.ids.Nodup) (holds : table.Holds id entry)
    (holds' : table.Holds id entry') : entry = entry' := by
  obtain ⟨row, member, same, rfl⟩ := holds
  obtain ⟨row', member', same', rfl⟩ := holds'
  rw [List.inj_on_of_nodup_map apart member member' (same.trans same'.symm)]

theorem holds_insert (fresh : table.has id = false) :
    (table.insert id entry).Holds other entry' ↔
      other = id ∧ entry' = entry ∨ other ≠ id ∧ table.Holds other entry' := by
  have absent (found : α) : ¬table.Holds id found := by
    intro holds
    rw [holds.has] at fresh
    cases fresh
  constructor
  · rintro ⟨row, member, rfl, rfl⟩
    rcases List.mem_append.mp member with inside | last
    · refine .inr ⟨?_, row, inside, rfl, rfl⟩
      rintro rfl
      exact absent _ ⟨row, inside, rfl, rfl⟩
    · rw [List.mem_singleton] at last
      exact .inl ⟨by rw [last], by rw [last]⟩
  · rintro (⟨rfl, rfl⟩ | ⟨-, row, member, same, same'⟩)
    · exact ⟨_, List.mem_append_right _ (List.mem_singleton_self _), rfl, rfl⟩
    · exact ⟨row, List.mem_append_left _ member, same, same'⟩

/-- Changing the row of a known id to an entry. -/
theorem holds_update {change : α → α} (known : table.has id = true)
    (constant : ∀ old, table.Holds id old → change old = entry) :
    (table.update id change).Holds other entry' ↔
      other = id ∧ entry' = entry ∨ other ≠ id ∧ table.Holds other entry' := by
  constructor
  · rintro ⟨row, member, rfl, rfl⟩
    obtain ⟨old, inside, rfl⟩ := List.mem_map.mp member
    by_cases same : old.id = id
    · rw [if_pos same]
      exact .inl ⟨same, constant old.entry ⟨old, inside, same, rfl⟩⟩
    · rw [if_neg same]
      exact .inr ⟨same, old, inside, rfl, rfl⟩
  · rintro (⟨rfl, rfl⟩ | ⟨different, row, member, same, same'⟩)
    · obtain ⟨old, row, member, same, rfl⟩ := exists_holds known
      refine ⟨_, List.mem_map_of_mem member, ?_, ?_⟩
      · rw [if_pos same]
        exact same
      · rw [if_pos same]
        exact constant row.entry ⟨row, member, same, rfl⟩
    · refine ⟨_, List.mem_map_of_mem member, ?_, ?_⟩
      · rw [if_neg (same ▸ different)]
        exact same
      · rw [if_neg (same ▸ different)]
        exact same'

theorem holds_filter {keep : Row α → Bool} (good : String → α → Prop)
    (kept : ∀ row, keep row = true ↔ good row.id row.entry) :
    Holds (table.filter keep) other entry' ↔ table.Holds other entry' ∧ good other entry' := by
  constructor
  · rintro ⟨row, member, rfl, rfl⟩
    obtain ⟨member, good⟩ := List.mem_filter.mp member
    exact ⟨⟨row, member, rfl, rfl⟩, (kept row).mp good⟩
  · rintro ⟨⟨row, member, rfl, rfl⟩, good⟩
    exact ⟨row, List.mem_filter.mpr ⟨member, (kept row).mpr good⟩, rfl, rfl⟩

theorem ids_update (change : α → α) : (table.update id change).ids = table.ids := by
  rw [update, ids, List.map_map, ids]
  refine List.map_congr_left fun row _ => ?_
  show (if row.id = id then _ else row).id = row.id
  split <;> rfl

theorem nodup_ids_insert (apart : table.ids.Nodup) (fresh : table.has id = false) :
    (table.insert id entry).ids.Nodup := by
  rw [insert, ids, List.map_append, ← ids]
  refine List.nodup_append.mpr ⟨apart, by simp, ?_⟩
  intro known member new member' same
  rw [List.map_singleton, List.mem_singleton] at member'
  have : table.has id = true := by
    rw [has_iff]
    rw [same, member'] at member
    exact member
  rw [this] at fresh
  cases fresh

theorem nodup_ids_filter (keep : Row α → Bool) (apart : table.ids.Nodup) :
    (ids (table.filter keep)).Nodup :=
  apart.sublist (List.filter_sublist.map _)

end Table

/-! ## What a store holds -/

namespace Store

/-- The ids of nodes and of edges are apart, and a database is not closed. -/
def Tidy : Store → Prop
  | .memory kept => kept.nodes.names.Nodup ∧ kept.edges.names.Nodup
  | .database kept =>
    kept ≠ .closed ∧ kept.tables.nodes.ids.Nodup ∧ kept.tables.edges.ids.Nodup

/-- A store has a node under an id. -/
def HasNode : Store → String → NodeEntry → Prop
  | .memory kept, id, entry => (id, entry) ∈ kept.nodes
  | .database kept, id, entry => kept.tables.nodes.Holds id entry

/-- A store has an edge under an id. -/
def HasEdge : Store → String → EdgeEntry → Prop
  | .memory kept, id, entry => (id, entry) ∈ kept.edges
  | .database kept, id, entry => kept.tables.edges.Holds id entry

variable {store store' : Store} {fresh id : String} {reply : StoreReply}

theorem Tidy.node_unique {entry entry' : NodeEntry} (tidy : store.Tidy)
    (has : store.HasNode id entry) (has' : store.HasNode id entry') : entry = entry' := by
  cases store with
  | memory kept => exact Catalog.eq_of_mem tidy.1 has has'
  | database kept => exact Table.Holds.unique tidy.2.1 has has'

theorem Tidy.edge_unique {entry entry' : EdgeEntry} (tidy : store.Tidy)
    (has : store.HasEdge id entry) (has' : store.HasEdge id entry') : entry = entry' := by
  cases store with
  | memory kept => exact Catalog.eq_of_mem tidy.2 has has'
  | database kept => exact Table.Holds.unique tidy.2.2 has has'

/-! ## Calls

A call of a database that is open changes its tables and nothing else. -/

theorem tables_withTables {kept : Database} (tables : Tables) (opened : kept ≠ .closed) :
    (kept.withTables tables).tables = tables ∧ kept.withTables tables ≠ .closed := by
  cases kept with
  | inFile => exact ⟨rfl, by simp [Database.withTables]⟩
  | opened => exact ⟨rfl, by simp [Database.withTables]⟩
  | closed => exact absurd rfl opened

/-- The id under which a record is written. -/
def target (fresh : String) (id : Option String) : String := (Text.given? id).getD fresh

/-- Apart from closing, a call is one of the tables. -/
theorem perform_of_ne_close {call : StoreCall} (open_ : call ≠ .close) (kept : Database)
    (fresh : String) : kept.perform fresh call = match kept.tables.perform fresh call with
      | .ok (reply, tables) => (.ok reply, kept.withTables tables)
      | .error fault => (.error fault, kept) := by
  cases call <;> first | rfl | exact absurd rfl open_

theorem database_perform {kept : Database} {call : StoreCall} (open_ : call ≠ .close)
    (answered : Store.perform fresh (.database kept) call = (.ok reply, store')) :
    ∃ tables, kept.tables.perform fresh call = .ok (reply, tables) ∧
      store' = .database (kept.withTables tables) := by
  rw [Store.perform, perform_of_ne_close open_] at answered
  cases found : kept.tables.perform fresh call with
  | error fault =>
    rw [found] at answered
    cases answered
  | ok result =>
    rw [found] at answered
    cases answered
    exact ⟨result.2, rfl, rfl⟩

/-- What comes of two steps, the first of which may fail. -/
theorem ok_of_bind {α β ε : Type} {first : Except ε α} {next : α → Except ε β} {value : β}
    (done : first >>= next = .ok value) :
    ∃ middle, first = .ok middle ∧ next middle = .ok value := by
  cases first with
  | error fault => cases done
  | ok middle => exact ⟨middle, rfl, done⟩

theorem upsertNode_tables {tables tables' : Tables} {entry : NodeEntry}
    (sameFlow : ∀ old, tables.nodes.Holds id old → old.flow = entry.flow)
    (apart : tables.nodes.ids.Nodup) (written : tables.upsertNode id entry = .ok tables') :
    tables'.edges = tables.edges ∧ tables'.nodes.ids.Nodup ∧
      ∀ other entry', tables'.nodes.Holds other entry' ↔
        other = id ∧ entry' = entry ∨ other ≠ id ∧ tables.nodes.Holds other entry' := by
  rw [Tables.upsertNode] at written
  cases known : tables.nodes.has id with
  | false =>
    simp only [known, Bool.not_false, if_true] at written
    obtain ⟨-, -, written⟩ := ok_of_bind written
    obtain ⟨-, -, written⟩ := ok_of_bind written
    obtain ⟨-, -, written⟩ := ok_of_bind written
    obtain ⟨-, -, written⟩ := ok_of_bind written
    cases written
    exact ⟨rfl, Table.nodup_ids_insert apart known, fun other entry' => Table.holds_insert known⟩
  | true =>
    simp only [known, Bool.not_true, Bool.false_eq_true, if_false, if_true] at written
    obtain ⟨-, -, written⟩ := ok_of_bind written
    obtain ⟨-, -, written⟩ := ok_of_bind written
    obtain ⟨-, -, written⟩ := ok_of_bind written
    cases written
    refine ⟨rfl, ?_, ?_⟩
    · rw [Table.ids_update]
      exact apart
    · intro other entry'
      have constant : ∀ old, tables.nodes.Holds id old →
          { entry with flow := old.flow } = entry := by
        intro old holds
        rw [sameFlow old holds]
      exact Table.holds_update known constant

theorem upsertEdge_tables {tables tables' : Tables} {entry : EdgeEntry}
    (sameFlow : ∀ old, tables.edges.Holds id old → old.flow = entry.flow)
    (apart : tables.edges.ids.Nodup) (written : tables.upsertEdge id entry = .ok tables') :
    tables'.nodes = tables.nodes ∧ tables'.edges.ids.Nodup ∧
      ∀ other entry', tables'.edges.Holds other entry' ↔
        other = id ∧ entry' = entry ∨ other ≠ id ∧ tables.edges.Holds other entry' := by
  rw [Tables.upsertEdge] at written
  cases known : tables.edges.has id with
  | false =>
    simp only [known, Bool.not_false, if_true] at written
    obtain ⟨-, -, written⟩ := ok_of_bind written
    obtain ⟨-, -, written⟩ := ok_of_bind written
    obtain ⟨-, -, written⟩ := ok_of_bind written
    cases written
    exact ⟨rfl, Table.nodup_ids_insert apart known, fun other entry' => Table.holds_insert known⟩
  | true =>
    simp only [known, Bool.not_true, Bool.false_eq_true, if_false, if_true] at written
    obtain ⟨-, -, written⟩ := ok_of_bind written
    obtain ⟨-, -, written⟩ := ok_of_bind written
    cases written
    refine ⟨rfl, ?_, ?_⟩
    · rw [Table.ids_update]
      exact apart
    · intro other entry'
      have constant : ∀ old, tables.edges.Holds id old →
          { entry with flow := old.flow } = entry := by
        intro old holds
        rw [sameFlow old holds]
      exact Table.holds_update known constant

/-- **Writing a node**: it is held under its id, all else stays. The flow of a known node must be
the one it is written with, since a database does not change it. -/
theorem upsertNode_law {record : Option String} {entry : NodeEntry} (tidy : store.Tidy)
    (sameFlow : ∀ old, store.HasNode (target fresh record) old → old.flow = entry.flow)
    (answered : store.perform fresh (.upsertNode record entry) = (.ok reply, store')) :
    reply = .id (target fresh record) ∧ store'.Tidy ∧
      (∀ id entry', store'.HasNode id entry' ↔ id = target fresh record ∧ entry' = entry ∨
        id ≠ target fresh record ∧ store.HasNode id entry') ∧
      ∀ id entry', store'.HasEdge id entry' ↔ store.HasEdge id entry' := by
  cases store with
  | memory kept =>
    simp only [Store.perform, Memory.perform] at answered
    split at answered
    · cases answered
      exact ⟨rfl, ⟨Catalog.nodup_names_insert tidy.1, tidy.2⟩,
        fun id entry' => Catalog.mem_insert tidy.1, fun id entry' => Iff.rfl⟩
    · cases answered
  | database kept =>
    obtain ⟨tables, found, rfl⟩ := database_perform (by simp) answered
    obtain ⟨opened, apart, apart'⟩ := tidy
    obtain ⟨same, open'⟩ := tables_withTables tables opened
    obtain ⟨written, stored, found⟩ := ok_of_bind found
    cases found
    obtain ⟨edges, nodes, holds⟩ := upsertNode_tables sameFlow apart stored
    simp only [Tidy, HasNode, HasEdge, same]
    rw [edges]
    exact ⟨rfl, ⟨open', nodes, apart'⟩, holds, fun id entry' => Iff.rfl⟩

/-- **Writing an edge**: it is held under its id, all else stays. -/
theorem upsertEdge_law {record : Option String} {entry : EdgeEntry} (tidy : store.Tidy)
    (sameFlow : ∀ old, store.HasEdge (target fresh record) old → old.flow = entry.flow)
    (answered : store.perform fresh (.upsertEdge record entry) = (.ok reply, store')) :
    reply = .id (target fresh record) ∧ store'.Tidy ∧
      (∀ id entry', store'.HasNode id entry' ↔ store.HasNode id entry') ∧
      ∀ id entry', store'.HasEdge id entry' ↔ id = target fresh record ∧ entry' = entry ∨
        id ≠ target fresh record ∧ store.HasEdge id entry' := by
  cases store with
  | memory kept =>
    simp only [Store.perform, Memory.perform] at answered
    split at answered
    · cases answered
      exact ⟨rfl, ⟨tidy.1, Catalog.nodup_names_insert tidy.2⟩, fun id entry' => Iff.rfl,
        fun id entry' => Catalog.mem_insert tidy.2⟩
    · cases answered
  | database kept =>
    obtain ⟨tables, found, rfl⟩ := database_perform (by simp) answered
    obtain ⟨opened, apart, apart'⟩ := tidy
    obtain ⟨same, open'⟩ := tables_withTables tables opened
    obtain ⟨written, stored, found⟩ := ok_of_bind found
    cases found
    obtain ⟨nodes, edges, holds⟩ := upsertEdge_tables sameFlow apart' stored
    simp only [Tidy, HasNode, HasEdge, same]
    rw [nodes]
    exact ⟨rfl, ⟨open', apart, edges⟩, fun id entry' => Iff.rfl, holds⟩

theorem equals_iff {value other : Option String} :
    Tables.equals value other = true ↔ value = other ∧ value ≠ none := by
  cases value <;> simp [Tables.equals]

theorem equals_some_iff {value : Option String} {other : String} :
    Tables.equals value (some other) = true ↔ value = some other := by
  cases value <;> simp [Tables.equals]

/-- **Removing a node** takes the edges that touch it along. -/
theorem removeNode_law {record : Option String} (tidy : store.Tidy)
    (answered : store.perform fresh (.removeNode record) = (.ok reply, store')) :
    store'.Tidy ∧
      (∀ id entry, store'.HasNode id entry ↔ store.HasNode id entry ∧ some id ≠ record) ∧
      (∀ id entry, store'.HasEdge id entry → store.HasEdge id entry) ∧
      ∀ id entry, store.HasEdge id entry → entry.source ≠ record → entry.target ≠ record →
        store'.HasEdge id entry := by
  cases store with
  | memory kept =>
    cases answered
    refine ⟨⟨Catalog.nodup_names_filter _ tidy.1, Catalog.nodup_names_filter _ tidy.2⟩, ?_, ?_, ?_⟩
    · intro id entry
      simp [HasNode, Memory.removeNode]
    · intro id entry member
      exact (List.mem_filter.mp member).1
    · intro id entry member source target
      exact List.mem_filter.mpr ⟨member, by simpa using ⟨source, target⟩⟩
  | database kept =>
    obtain ⟨tables, found, rfl⟩ := database_perform (by simp) answered
    obtain ⟨opened, apart, apart'⟩ := tidy
    obtain ⟨same, open'⟩ := tables_withTables tables opened
    cases found
    simp only [Tidy, HasNode, HasEdge, same]
    have edges (id : String) (entry : EdgeEntry) :
        (kept.tables.removeNode record).edges.Holds id entry ↔ kept.tables.edges.Holds id entry ∧
          ¬(entry.source = record ∧ entry.source ≠ none) ∧
            ¬(entry.target = record ∧ entry.target ≠ none) := by
      refine Table.holds_filter (fun _ (entry : EdgeEntry) =>
        ¬(entry.source = record ∧ entry.source ≠ none) ∧
          ¬(entry.target = record ∧ entry.target ≠ none)) ?_
      intro row
      rw [Bool.and_eq_true, Bool.not_eq_true', Bool.not_eq_true', ← Bool.not_eq_true,
        ← Bool.not_eq_true, equals_iff, equals_iff]
    refine ⟨⟨open', Table.nodup_ids_filter _ apart, Table.nodup_ids_filter _ apart'⟩, ?_, ?_, ?_⟩
    · intro id entry
      exact Table.holds_filter (fun id _ => some id ≠ record) (by simp)
    · exact fun id entry holds => ((edges id entry).mp holds).1
    · intro id entry holds source target
      exact (edges id entry).mpr
        ⟨holds, fun touches => source touches.1, fun touches => target touches.1⟩

/-- **Removing an edge** leaves all else. -/
theorem removeEdge_law {record : Option String} (tidy : store.Tidy)
    (answered : store.perform fresh (.removeEdge record) = (.ok reply, store')) :
    store'.Tidy ∧ (∀ id entry, store'.HasNode id entry ↔ store.HasNode id entry) ∧
      ∀ id entry, store'.HasEdge id entry ↔ store.HasEdge id entry ∧ some id ≠ record := by
  cases store with
  | memory kept =>
    cases answered
    refine ⟨⟨tidy.1, Catalog.nodup_names_filter _ tidy.2⟩, fun id entry => Iff.rfl, ?_⟩
    intro id entry
    simp [HasEdge, Memory.removeEdge]
  | database kept =>
    obtain ⟨tables, found, rfl⟩ := database_perform (by simp) answered
    obtain ⟨opened, apart, apart'⟩ := tidy
    obtain ⟨same, open'⟩ := tables_withTables tables opened
    cases found
    simp only [Tidy, HasNode, HasEdge, same]
    refine ⟨⟨open', apart, Table.nodup_ids_filter _ apart'⟩, fun id entry => Iff.rfl, ?_⟩
    intro id entry
    exact Table.holds_filter (fun id _ => some id ≠ record) (by simp)

/-- Keeping the text of a flow leaves nodes and edges as they are. -/
theorem updatePreview_law {flow code : Option String} (tidy : store.Tidy)
    (answered : store.perform fresh (.updatePreview flow code) = (.ok reply, store')) :
    store'.Tidy ∧ (∀ id entry, store'.HasNode id entry ↔ store.HasNode id entry) ∧
      ∀ id entry, store'.HasEdge id entry ↔ store.HasEdge id entry := by
  cases store with
  | memory kept =>
    cases answered
    exact ⟨tidy, fun id entry => Iff.rfl, fun id entry => Iff.rfl⟩
  | database kept =>
    obtain ⟨tables, found, rfl⟩ := database_perform (by simp) answered
    obtain ⟨same, open'⟩ := tables_withTables tables tidy.1
    cases found
    have kept' : (kept.tables.updatePreview flow code).nodes = kept.tables.nodes ∧
        (kept.tables.updatePreview flow code).edges = kept.tables.edges := by
      cases flow <;> exact ⟨rfl, rfl⟩
    simp only [Tidy, HasNode, HasEdge, same, kept']
    exact ⟨⟨open', tidy.2⟩, by simp, by simp⟩

/-! ## Listings -/

/-- The nodes of a flow, as the store lists them. -/
def nodesOf (store : Store) (flow : String) : List StoredNode :=
  match store with
  | .memory kept => kept.nodesOf (some flow)
  | .database kept => kept.tables.nodesOf (some flow)

/-- The edges of a flow, as the store lists them. -/
def edgesOf (store : Store) (flow : String) : List StoredEdge :=
  match store with
  | .memory kept => kept.edgesOf (some flow)
  | .database kept => kept.tables.edgesOf (some flow)

theorem read_listNodes (store : Store) (flow : String) :
    store.read (.listNodes (some flow)) = .ok (.nodes (store.nodesOf flow)) := by
  cases store <;> rfl

theorem read_listEdges (store : Store) (flow : String) :
    store.read (.listEdges (some flow)) = .ok (.edges (store.edgesOf flow)) := by
  cases store <;> rfl

theorem mem_nodesOf {flow : String} {record : StoredNode} :
    record ∈ store.nodesOf flow ↔
      store.HasNode record.id record.toNodeEntry ∧ record.flow = some flow := by
  cases store with
  | memory kept =>
    simp only [nodesOf, Memory.nodesOf, HasNode, List.mem_map, List.mem_filter]
    constructor
    · rintro ⟨⟨id, entry⟩, ⟨member, same⟩, rfl⟩
      exact ⟨member, by simpa using same⟩
    · rintro ⟨member, same⟩
      exact ⟨(record.id, record.toNodeEntry), ⟨member, by simpa using same⟩, rfl⟩
  | database kept =>
    simp only [nodesOf, Tables.nodesOf, HasNode, Table.inOrder, List.mem_map, List.mem_filter,
      List.mem_mergeSort, equals_some_iff]
    constructor
    · rintro ⟨row, ⟨member, same⟩, rfl⟩
      exact ⟨⟨row, member, rfl, rfl⟩, same⟩
    · rintro ⟨⟨row, member, id, entry⟩, same⟩
      refine ⟨row, ⟨member, entry ▸ same⟩, ?_⟩
      rw [id, entry]

theorem mem_edgesOf {flow : String} {record : StoredEdge} :
    record ∈ store.edgesOf flow ↔
      store.HasEdge record.id record.toEdgeEntry ∧ record.flow = some flow := by
  cases store with
  | memory kept =>
    simp only [edgesOf, Memory.edgesOf, HasEdge, List.mem_map, List.mem_filter]
    constructor
    · rintro ⟨⟨id, entry⟩, ⟨member, same⟩, rfl⟩
      exact ⟨member, by simpa using same⟩
    · rintro ⟨member, same⟩
      exact ⟨(record.id, record.toEdgeEntry), ⟨member, by simpa using same⟩, rfl⟩
  | database kept =>
    simp only [edgesOf, Tables.edgesOf, HasEdge, Table.inOrder, List.mem_map, List.mem_filter,
      List.mem_mergeSort, equals_some_iff]
    constructor
    · rintro ⟨row, ⟨member, same⟩, rfl⟩
      exact ⟨⟨row, member, rfl, rfl⟩, same⟩
    · rintro ⟨⟨row, member, id, entry⟩, same⟩
      refine ⟨row, ⟨member, entry ▸ same⟩, ?_⟩
      rw [id, entry]

/-- No record is listed twice. -/
theorem Tidy.nodup_nodesOf {flow : String} (tidy : store.Tidy) :
    ((store.nodesOf flow).map (·.id)).Nodup := by
  cases store with
  | memory kept =>
    rw [nodesOf, Memory.nodesOf, List.map_map]
    exact Catalog.nodup_names_filter _ tidy.1
  | database kept =>
    rw [nodesOf, Tables.nodesOf, List.map_map]
    have sorted : (List.map Row.id kept.tables.nodes.inOrder).Nodup :=
      ((List.mergeSort_perm _ _).map Row.id).nodup_iff.mpr tidy.2.1
    exact sorted.sublist (List.filter_sublist.map _)

theorem Tidy.nodup_edgesOf {flow : String} (tidy : store.Tidy) :
    ((store.edgesOf flow).map (·.id)).Nodup := by
  cases store with
  | memory kept =>
    rw [edgesOf, Memory.edgesOf, List.map_map]
    exact Catalog.nodup_names_filter _ tidy.2
  | database kept =>
    rw [edgesOf, Tables.edgesOf, List.map_map]
    have sorted : (List.map Row.id kept.tables.edges.inOrder).Nodup :=
      ((List.mergeSort_perm _ _).map Row.id).nodup_iff.mpr tidy.2.2
    exact sorted.sublist (List.filter_sublist.map _)

end Store

end SourceCanvas
