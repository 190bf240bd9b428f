import SourceCanvas.Proofs.GraphLaws

/-!
# New ids

What renaming does to the ids of a graph: a node has a new id if and only if its old one is renamed
(`Graph.mem_ids_renameAll`), no id is renamed to itself (`Graph.Renames`), and the graph stays
sound. `settle_spec` says all this of a graph that is settled for its text.
-/

namespace SourceCanvas

/-! ## Pairs -/

theorem mem_of_mem_pairUp {α β : Type} {fits : α → β → Bool} {as : List α} {available : List β}
    {pair : α × β} (paired : pair ∈ pairUp fits as available) :
    pair.1 ∈ as ∧ pair.2 ∈ available := by
  induction as generalizing available with
  | nil => simp [pairUp] at paired
  | cons a rest ih =>
    rw [pairUp] at paired
    split at paired
    · next b found =>
      rcases List.mem_cons.mp paired with rfl | later
      · exact ⟨List.mem_cons_self .., List.mem_of_find?_eq_some found⟩
      · obtain ⟨first, second⟩ := ih later
        exact ⟨List.mem_cons_of_mem _ first, List.mem_of_mem_eraseP second⟩
    · obtain ⟨first, second⟩ := ih paired
      exact ⟨List.mem_cons_of_mem _ first, second⟩

namespace Graph

theorem newId_nil : newId [] = id := rfl

theorem parent_renameNode (renamed : Catalog String) (pairs : List (CanvasNode × Node))
    (node : CanvasNode) :
    (renameNode renamed pairs node).parent = node.parent.map (newId renamed) := rfl

theorem renameNode_nil (pairs : List (CanvasNode × Node)) (node : CanvasNode) :
    renameNode [] pairs node = node := by
  rw [renameNode, newId_nil, Option.map_id]
  rfl

variable {graph : Graph} {parsed : List Node} {ranges : Catalog Span}
  {pair : CanvasNode × Node} {pairs : List (CanvasNode × Node)} {renamed : Catalog String}
  {id : String}

theorem mem_matchBelow {fuel : Nat} {top : CanvasNode × Node} (first : top.1 ∈ graph.nodes)
    (second : top.2 ∈ parsed) (below : pair ∈ graph.matchBelow parsed fuel top) :
    pair.1 ∈ graph.nodes ∧ pair.2 ∈ parsed := by
  induction fuel generalizing top with
  | zero =>
    rw [matchBelow, List.mem_singleton] at below
    subst below
    exact ⟨first, second⟩
  | succ fuel ih =>
    obtain ⟨node, construct⟩ := top
    rw [matchBelow] at below
    rcases List.mem_cons.mp below with rfl | below
    · exact ⟨first, second⟩
    · obtain ⟨child, paired, below⟩ := List.mem_flatMap.mp below
      obtain ⟨childFirst, childSecond⟩ := mem_of_mem_pairUp paired
      exact ih (List.mem_filter.mp childFirst).1 (List.mem_filter.mp childSecond).1 below

/-- Nodes of the graph are matched with parsed nodes. -/
theorem mem_matching (matched : pair ∈ graph.matching parsed ranges) :
    pair.1 ∈ graph.nodes ∧ pair.2 ∈ parsed := by
  obtain ⟨top, paired, below⟩ := List.mem_flatMap.mp (mem_of_mem_latest matched)
  obtain ⟨first, second⟩ := mem_of_mem_pairUp paired
  exact mem_matchBelow first (List.mem_filter.mp second).1 below

/-! ## Renaming -/

/-- New ids by old ones that pairs of nodes give. -/
structure Renames (pairs : List (CanvasNode × Node)) (renamed : Catalog String) : Prop where
  given : ∀ old new, renamed.get? old = some new →
    ∃ pair ∈ pairs, pair.1.id = old ∧ pair.2.id = new
  different : ∀ old new, renamed.get? old = some new → old ≠ new

theorem renames_newIds (graph : Graph) (pairs : List (CanvasNode × Node)) :
    Renames pairs (graph.newIds pairs) := by
  have moved {old new : String} (found : (graph.newIds pairs).get? old = some new) :
      ∃ pair ∈ pairs, pair.1.id = old ∧ pair.2.id = new ∧ old ≠ new := by
    have member := (List.mem_filter.mp (Catalog.mem_of_get? found)).1
    obtain ⟨pair, moved, same⟩ := List.mem_map.mp member
    obtain ⟨inside, different⟩ := List.mem_filter.mp moved
    obtain ⟨rfl, rfl⟩ := Prod.mk.inj same
    exact ⟨pair, inside, rfl, rfl, by simpa using different⟩
  constructor
  · intro old new found
    obtain ⟨pair, inside, first, second, -⟩ := moved found
    exact ⟨pair, inside, first, second⟩
  · intro old new found
    obtain ⟨-, -, -, -, different⟩ := moved found
    exact different

theorem id_renameNode (renames : Renames pairs renamed) (node : CanvasNode) :
    (renameNode renamed pairs node).id = newId renamed node.id := by
  rw [renameNode, newId]
  cases found : renamed.get? node.id with
  | none => rfl
  | some new =>
    obtain ⟨pair, inside, same, -⟩ := renames.given node.id new found
    cases matched : pairs.find? (·.1.id == node.id) with
    | none => exact absurd (List.find?_eq_none.mp matched pair inside) (by simp [same])
    | some pair => rfl

/-- The ids after renaming are the new ids. -/
theorem mem_ids_renameAll (renames : Renames pairs renamed) :
    id ∈ (graph.renameAll renamed pairs).ids ↔ ∃ old ∈ graph.ids, newId renamed old = id := by
  show id ∈ (collect (graph.nodes.map (renameNode renamed pairs))).map (·.id) ↔ _
  rw [mem_ids_collect, List.map_map]
  simp only [ids, List.mem_map, Function.comp, id_renameNode renames]
  constructor
  · rintro ⟨node, member, rfl⟩
    exact ⟨node.id, ⟨node, member, rfl⟩, rfl⟩
  · rintro ⟨_, ⟨node, member, rfl⟩, rfl⟩
    exact ⟨node, member, rfl⟩

theorem newId_eq_or (renamed : Catalog String) (id : String) :
    newId renamed id = id ∨ renamed.get? id = some (newId renamed id) := by
  rw [newId]
  cases renamed.get? id with
  | none => exact .inl rfl
  | some new => exact .inr rfl

theorem Formed.renameAll {naming : Naming} (formed : graph.Formed naming)
    (renames : Renames pairs renamed) (plain : ∀ pair ∈ pairs, Plain pair.2.id) :
    (graph.renameAll renamed pairs).Formed naming := by
  have newNamed {old : String} (member : old ∈ graph.ids) : naming.node (newId renamed old) := by
    rcases newId_eq_or renamed old with same | found
    · rw [same]
      exact formed.named old member
    · obtain ⟨pair, inside, -, same⟩ := renames.given old _ found
      rw [← same]
      exact naming.node_of_plain _ (plain pair inside)
  refine formed_of_parts ?_ ?_ ?_ ?_ ?_
  · exact nodup_ids_collect _
  · show ∀ id ∈ (graph.renameAll renamed pairs).ids, naming.node id
    intro id member
    obtain ⟨old, inside, rfl⟩ := (mem_ids_renameAll renames).mp member
    exact newNamed inside
  · rw [List.map_map]
    exact formed.edgesApart.sublist (List.filter_sublist.map _)
  · intro edge member
    obtain ⟨old, inside, rfl⟩ := List.mem_map.mp member
    obtain ⟨inside, drawn⟩ := mem_userEdges.mp inside
    exact ⟨naming.edge_renamed old renamed (formed.fitting old inside) drawn, drawn⟩
  · intro edge member
    obtain ⟨old, inside, rfl⟩ := List.mem_map.mp member
    obtain ⟨source, target⟩ := formed.live old (mem_userEdges.mp inside).1
    show newId renamed old.source ∈ (graph.renameAll renamed pairs).ids ∧
      newId renamed old.target ∈ (graph.renameAll renamed pairs).ids
    rw [mem_ids_renameAll renames, mem_ids_renameAll renames]
    exact ⟨⟨_, source, rfl⟩, ⟨_, target, rfl⟩⟩

/-- Moving nodes to the ids of a parsed text leaves a graph well-formed. -/
theorem Formed.rekey {naming : Naming} (formed : graph.Formed naming) (ranges : Catalog Span)
    (plain : ∀ node ∈ parsed, Plain node.id) : (graph.rekey parsed ranges).1.Formed naming := by
  rw [Graph.rekey]
  split
  · exact formed
  · exact formed.renameAll (renames_newIds _ _) fun pair matched => plain _ (mem_matching matched).2

/-- What settling makes of a graph. -/
structure Settled (graph : Graph) (result : Graph × Catalog String) : Prop where
  sound : result.1.Sound
  ids : ∀ id, id ∈ result.1.ids ↔ ∃ old ∈ graph.ids, newId result.2 old = id
  different : ∀ old new, result.2.get? old = some new → old ≠ new

theorem Sound.settled_same (sound : graph.Sound) : Settled graph (graph, []) where
  sound := sound
  ids := fun id => by simp [newId]
  different := by simp

theorem Sound.rekey (sound : graph.Sound) (ranges : Catalog Span)
    (plain : ∀ node ∈ parsed, Plain node.id) :
    Settled graph (graph.rekey parsed ranges) := by
  have renames := renames_newIds graph (graph.matching parsed ranges)
  have formed := (sound_iff.mp sound).rekey ranges plain
  rw [Graph.rekey] at formed ⊢
  split
  · exact sound.settled_same
  · next moved =>
    rw [if_neg moved] at formed
    exact {
      sound := sound_iff.mpr formed
      ids := fun id => mem_ids_renameAll renames
      different := renames.different }

theorem ids_withSpans (graph : Graph) (ranges : Catalog Span) :
    (Session.withSpans graph ranges).ids = graph.ids := by
  rw [Session.withSpans, ids, List.map_map]
  rfl

theorem Formed.withSpans {naming : Naming} (formed : graph.Formed naming) (ranges : Catalog Span) :
    (Session.withSpans graph ranges).Formed naming :=
  formed.of_ids (ids_withSpans graph ranges) rfl

/-- Settling a graph for its text leaves it well-formed. -/
theorem Formed.settle {naming : Naming} (formed : graph.Formed naming) (reclassify : Bool)
    (program : Program) : (Session.settle reclassify program graph).1.Formed naming := by
  rw [Session.settle]
  split
  · exact formed.withSpans program.ranges
  · next parsed read => exact (formed.withSpans program.ranges).rekey _ (plain_of_parse read)

theorem Sound.settle (sound : graph.Sound) (reclassify : Bool) (program : Program) :
    Settled graph (Session.settle reclassify program graph) := by
  have spanned : (Session.withSpans graph program.ranges).Sound :=
    sound_iff.mpr ((sound_iff.mp sound).withSpans program.ranges)
  have same := ids_withSpans graph program.ranges
  rw [Session.settle]
  split
  · have settled := spanned.settled_same
    exact ⟨settled.sound, same ▸ settled.ids, settled.different⟩
  · next parsed read =>
    have settled := spanned.rekey program.ranges (plain_of_parse read)
    exact ⟨settled.sound, same ▸ settled.ids, settled.different⟩

end Graph

end SourceCanvas
