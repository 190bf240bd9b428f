import Mathlib.Data.List.Nodup
import SourceCanvas.Proofs.RekeyLaws

/-!
# When moving nodes to the ids of a text loses nothing

`Graph.rekey` is to give nodes new ids and nothing else. It takes back a new id if a node that keeps
its own has it. But the node whose new id is taken back then keeps its own id as well, and nobody
looks whether that one was given away: so two nodes may end up under one id, and one of them is
lost.
`Graph.isRenaming_rekey_iff` says that this is all that can go wrong: the graph is renamed and loses
nothing if and only if no new id is taken back from a node whose own id goes to another one
(`Graph.Unobstructed`).

* `Graph.eq_of_matched`: no two nodes are matched with one construct
* `Graph.newId_inj`: unless a new id is taken back so, new ids are apart
-/

namespace SourceCanvas

/-! ## Pairs -/

/-- Nothing of the second list is paired twice. -/
theorem eq_of_mem_pairUp {α β : Type} {fits : α → β → Bool} {as : List α} {available : List β}
    (apart : available.Nodup) {pair pair' : α × β} (paired : pair ∈ pairUp fits as available)
    (paired' : pair' ∈ pairUp fits as available) (same : pair.2 = pair'.2) : pair = pair' := by
  induction as generalizing available with
  | nil => simp [pairUp] at paired
  | cons a rest ih =>
    rw [pairUp] at paired paired'
    split at paired
    · next b found =>
      rw [found] at paired'
      -- what the first element takes is not there for the others
      have taken {later : α × β} (behind : later ∈ pairUp fits rest (available.eraseP (fits a))) :
          later.2 ≠ b := by
        rintro rfl
        obtain ⟨fitting, before, after, rfl, none⟩ := List.find?_eq_some_iff_append.mp found
        have member := (mem_of_mem_pairUp behind).2
        rw [List.eraseP_append_right _ (fun c inside => by simpa using none c inside),
          List.eraseP_cons_of_pos fitting] at member
        rw [List.nodup_middle, List.nodup_cons] at apart
        exact apart.1 member
      rcases List.mem_cons.mp paired with rfl | behind
      · rcases List.mem_cons.mp paired' with rfl | behind'
        · rfl
        · exact absurd same.symm (taken behind')
      · rcases List.mem_cons.mp paired' with rfl | behind'
        · exact absurd same (taken behind)
        · exact ih (apart.sublist List.eraseP_sublist) behind behind'
    · next missing =>
      rw [missing] at paired'
      exact ih apart paired paired'

namespace Graph

variable {graph : Graph} {parsed : List Node} {ranges : Catalog Span}
  {pair pair' : CanvasNode × Node} {pairs : List (CanvasNode × Node)} {renamed : Catalog String}

/-! ## Matched pairs -/

/-- How a node is matched with a construct: at the top level through its block, below a matched pair
by kind and order. -/
inductive Matched (graph : Graph) (parsed : List Node) (ranges : Catalog Span) :
    CanvasNode × Node → Prop where
  | top {found : CanvasNode × Node}
      (paired : found ∈ pairUp (startsIn ranges) graph.nodes (parsed.filter Node.isTopLevel)) :
      Matched graph parsed ranges found
  | under {above found : CanvasNode × Node} (matched : Matched graph parsed ranges above)
      (paired : found ∈ pairUp (fun child candidate => candidate.kindName == child.kindName)
        (graph.children above.1.id) (childrenOf parsed above.2.id)) :
      Matched graph parsed ranges found

theorem matched_of_mem_matchBelow {fuel : Nat} {above : CanvasNode × Node}
    (matched : Matched graph parsed ranges above)
    (below : pair ∈ graph.matchBelow parsed fuel above) :
    Matched graph parsed ranges pair := by
  induction fuel generalizing above with
  | zero =>
    rw [matchBelow, List.mem_singleton] at below
    exact below ▸ matched
  | succ fuel ih =>
    obtain ⟨node, construct⟩ := above
    rw [matchBelow] at below
    rcases List.mem_cons.mp below with rfl | below
    · exact matched
    · obtain ⟨child, paired, below⟩ := List.mem_flatMap.mp below
      exact ih (.under matched paired) below

theorem matched_of_mem_matching (member : pair ∈ graph.matching parsed ranges) :
    Matched graph parsed ranges pair := by
  obtain ⟨top, paired, below⟩ := List.mem_flatMap.mp (mem_of_mem_latest member)
  exact matched_of_mem_matchBelow (.top paired) below

theorem Matched.mem_parsed (matched : Matched graph parsed ranges pair) : pair.2 ∈ parsed := by
  cases matched with
  | top paired => exact (List.mem_filter.mp (mem_of_mem_pairUp paired).2).1
  | under matched paired => exact (List.mem_filter.mp (mem_of_mem_pairUp paired).2).1

/-- No two nodes are matched with one construct. -/
theorem eq_of_matched (apart : (parsed.map Node.id).Nodup)
    (matched : Matched graph parsed ranges pair) (matched' : Matched graph parsed ranges pair')
    (same : pair.2 = pair'.2) : pair = pair' := by
  have distinct : parsed.Nodup := .of_map _ apart
  -- by induction on how the first pair is matched: its place tells how the second one is
  induction matched generalizing pair' with
  | top paired =>
    have top := (List.mem_filter.mp (mem_of_mem_pairUp paired).2).2
    cases matched' with
    | top paired' => exact eq_of_mem_pairUp (distinct.filter _) paired paired' same
    | under matched' paired' =>
      have below := (List.mem_filter.mp (mem_of_mem_pairUp paired').2).2
      rw [← same, beq_iff_eq] at below
      rw [Node.isTopLevel, below] at top
      cases top
  | @under above pair matched paired ih =>
    have below := (List.mem_filter.mp (mem_of_mem_pairUp paired).2).2
    rw [beq_iff_eq] at below
    cases matched' with
    | top paired' =>
      have top := (List.mem_filter.mp (mem_of_mem_pairUp paired').2).2
      rw [Node.isTopLevel, ← same, below] at top
      cases top
    | @under above' _ matched' paired' =>
      have below' := (List.mem_filter.mp (mem_of_mem_pairUp paired').2).2
      rw [beq_iff_eq, ← same, below] at below'
      have construct : above.2 = above'.2 :=
        List.inj_on_of_nodup_map apart matched.mem_parsed matched'.mem_parsed
          (Option.some.inj below')
      cases ih matched' construct
      exact eq_of_mem_pairUp (distinct.filter _) paired paired' same

/-! ## New ids -/

/-- Pairs of different nodes and different constructs. -/
structure Distinct (pairs : List (CanvasNode × Node)) : Prop where
  nodes : (pairs.map (·.1.id)).Nodup
  constructs : ∀ pair ∈ pairs, ∀ pair' ∈ pairs, pair.2.id = pair'.2.id → pair = pair'

theorem distinct_matching (apart : (parsed.map Node.id).Nodup) :
    Distinct (graph.matching parsed ranges) where
  nodes := nodup_ids_latest _
  constructs pair member pair' member' same := by
    have matched := matched_of_mem_matching member
    have matched' := matched_of_mem_matching member'
    exact eq_of_matched apart matched matched'
      (List.inj_on_of_nodup_map apart matched.mem_parsed matched'.mem_parsed same)

/-- A pair moves its node: the construct has another id. -/
def Moves (pair : CanvasNode × Node) : Prop := pair.1.id ≠ pair.2.id

/-- An id stays with its node, as far as the pairs tell. -/
def Stays (graph : Graph) (pairs : List (CanvasNode × Node)) (id : String) : Prop :=
  id ∈ graph.ids ∧ ∀ pair ∈ pairs, Moves pair → pair.1.id ≠ id

/-- No new id is taken back from a node whose own id goes to another one: where the id of a node is
to go to another node and the node itself is to move, its new id does not stay with a third one. -/
def Unobstructed (graph : Graph) (pairs : List (CanvasNode × Node)) : Prop :=
  ∀ pair ∈ pairs, ∀ next ∈ pairs, Moves pair → Moves next → pair.2.id = next.1.id →
    ¬Stays graph pairs next.2.id

instance (pair : CanvasNode × Node) : Decidable (Moves pair) :=
  inferInstanceAs (Decidable (pair.1.id ≠ pair.2.id))

instance (graph : Graph) (pairs : List (CanvasNode × Node)) (id : String) :
    Decidable (Stays graph pairs id) :=
  inferInstanceAs (Decidable (id ∈ graph.ids ∧ ∀ pair ∈ pairs, Moves pair → pair.1.id ≠ id))

instance (graph : Graph) (pairs : List (CanvasNode × Node)) :
    Decidable (graph.Unobstructed pairs) :=
  inferInstanceAs (Decidable (∀ pair ∈ pairs, ∀ next ∈ pairs, Moves pair → Moves next →
    pair.2.id = next.1.id → ¬Stays graph pairs next.2.id))

theorem get?_newIds_iff (distinct : Distinct pairs) {old new : String} :
    (graph.newIds pairs).get? old = some new ↔
      ∃ pair ∈ pairs, pair.1.id = old ∧ pair.2.id = new ∧ Moves pair ∧ ¬Stays graph pairs new := by
  have movesTo {old new : String} :
      (old, new) ∈ (pairs.filter fun pair => pair.1.id != pair.2.id).map
          (fun pair => (pair.1.id, pair.2.id)) ↔
        ∃ pair ∈ pairs, pair.1.id = old ∧ pair.2.id = new ∧ Moves pair := by
    simp only [List.mem_map, List.mem_filter, bne_iff_ne, Prod.mk.injEq, Moves]
    grind
  generalize moves : (pairs.filter fun pair => pair.1.id != pair.2.id).map
    (fun pair => (pair.1.id, pair.2.id)) = entries at movesTo
  have kept {id : String} :
      (graph.ids.filter fun id => !Catalog.has entries id).contains id = true ↔
        Stays graph pairs id := by
    rw [List.contains_iff_mem, List.mem_filter, Bool.not_eq_true', ← Bool.not_eq_true,
      Catalog.has, Catalog.get?_isSome_iff, Stays]
    refine and_congr_right fun _ => ⟨fun fresh pair member moving same => fresh ?_, ?_⟩
    · exact List.mem_map.mpr ⟨(id, pair.2.id), movesTo.mpr ⟨pair, member, same, rfl, moving⟩, rfl⟩
    · intro stays known
      obtain ⟨⟨old, new⟩, member, rfl⟩ := List.mem_map.mp known
      obtain ⟨pair, inside, same, -, moving⟩ := movesTo.mp member
      exact stays pair inside moving same
  have listed {old new : String} : (old, new) ∈ graph.newIds pairs ↔
      ∃ pair ∈ pairs, pair.1.id = old ∧ pair.2.id = new ∧ Moves pair ∧ ¬Stays graph pairs new := by
    rw [newIds, moves, List.mem_filter, movesTo, Bool.not_eq_true', ← Bool.not_eq_true, kept]
    grind
  constructor
  · exact fun found => listed.mp (Catalog.mem_of_get? found)
  · intro given
    have member := listed.mpr given
    obtain ⟨found, same⟩ := Option.isSome_iff_exists.mp
      (Catalog.get?_isSome_iff.mpr (List.mem_map_of_mem member))
    obtain ⟨pair, inside, rfl, rfl, -⟩ := given
    obtain ⟨pair', inside', same', rfl, -⟩ := listed.mp (Catalog.mem_of_get? same)
    rw [same, List.inj_on_of_nodup_map distinct.nodes inside inside' same'.symm]

/-- Unless a new id is taken back from a node whose own id goes to another one, new ids are
apart. -/
theorem newId_inj (distinct : Distinct pairs) (open' : graph.Unobstructed pairs) {id id' : String}
    (member : id ∈ graph.ids) (member' : id' ∈ graph.ids)
    (same : newId (graph.newIds pairs) id = newId (graph.newIds pairs) id') : id = id' := by
  -- a node that is not renamed either is matched with its own id or has its new id taken back
  have unmoved {old new : String} (kept : (graph.newIds pairs).get? new = none)
      (inside : new ∈ graph.ids) (found : (graph.newIds pairs).get? old = some new) : False := by
    obtain ⟨pair, member, rfl, rfl, moving, leaves⟩ := (get?_newIds_iff distinct).mp found
    refine leaves ⟨inside, fun next among moving' same => ?_⟩
    have open' := open' pair member next among moving moving' same.symm
    rw [← same] at kept
    rw [(get?_newIds_iff distinct).mpr ⟨next, among, rfl, rfl, moving', open'⟩] at kept
    cases kept
  rw [newId, newId] at same
  cases found : (graph.newIds pairs).get? id with
  | none =>
    cases found' : (graph.newIds pairs).get? id' with
    | none =>
      rw [found, found'] at same
      exact same
    | some new =>
      rw [found, found'] at same
      obtain rfl : id = new := same
      exact (unmoved found member found').elim
  | some new =>
    cases found' : (graph.newIds pairs).get? id' with
    | none =>
      rw [found, found'] at same
      obtain rfl : new = id' := same
      exact (unmoved found' member' found).elim
    | some new' =>
      rw [found, found'] at same
      obtain rfl : new = new' := same
      obtain ⟨pair, inside, rfl, rfl, -⟩ := (get?_newIds_iff distinct).mp found
      obtain ⟨pair', inside', rfl, construct, -⟩ := (get?_newIds_iff distinct).mp found'
      rw [distinct.constructs pair inside pair' inside' construct.symm]

/-! ## Renamings -/

/-- What becomes of a node: it is the same under its new id, apart from the place in the text and
the id of its parent. If it has no name it may be given one. -/
structure SameNode (renamed : Catalog String) (node moved : CanvasNode) : Prop where
  id : moved.id = newId renamed node.id
  kind : moved.kindName = node.kindName
  position : moved.position = node.position
  content : moved.content = node.content ∨
    ∃ attributes name, node.content = .typed attributes ∧
      attributes.name?.bind Text.nonempty? = none ∧
      moved.content = .typed (attributes.withName name)

/-- What becomes of an edge drawn by hand, given each node with what becomes of it: it keeps what it
is and joins what becomes of the nodes that it joined. -/
structure SameEdge (nodes : List (CanvasNode × CanvasNode)) (edge moved : Edge) : Prop where
  id : moved.id = edge.id
  handles : moved.sourceHandle = edge.sourceHandle ∧ moved.targetHandle = edge.targetHandle
  data : moved.data = edge.data
  source : ∀ pair ∈ nodes, edge.source = pair.1.id → moved.source = pair.2.id
  target : ∀ pair ∈ nodes, edge.target = pair.1.id → moved.target = pair.2.id

/-- A graph, with new ids by old ones, is another one renamed, and nothing of that is lost. -/
structure IsRenaming (graph : Graph) (result : Graph × Catalog String) : Prop where
  nodes : List.Forall₂ (SameNode result.2) graph.nodes result.1.nodes
  apart : result.1.ids.Nodup
  /-- new ids are given to nodes, one to each -/
  given : result.2.names.Nodup ∧ ∀ id ∈ result.2.names, id ∈ graph.ids
  injective : ∀ old old' new, result.2.get? old = some new → result.2.get? old' = some new →
    old = old'
  /-- no new id is that of a node that keeps its own -/
  fresh : ∀ old new, result.2.get? old = some new → new ∈ graph.ids → new ∈ result.2.names
  parents : ∀ pair ∈ graph.nodes.zip result.1.nodes, ∀ other ∈ graph.nodes.zip result.1.nodes,
    pair.1.parent = some other.1.id → pair.2.parent = some other.2.id
  edges : List.Forall₂ (SameEdge (graph.nodes.zip result.1.nodes)) graph.userEdges
    result.1.userEdges

theorem sameNode_renameNode (renames : Renames pairs renamed) (node : CanvasNode) :
    SameNode renamed node (renameNode renamed pairs node) := by
  have id := id_renameNode renames node
  rw [renameNode] at id ⊢
  split at id
  · next new pair construct _ _ =>
    refine ⟨id, ?_, ?_, ?_⟩
    · show (pinName node construct).kindName = node.kindName
      rw [pinName]
      split
      · next attributes name typed _ =>
        split
        · rfl
        · simp [Node.kindName, Content.kindName, typed]
      · rfl
    · show (pinName node construct).position = node.position
      rw [pinName]
      split
      · split <;> rfl
      · rfl
    · show (pinName node construct).content = node.content ∨ _
      rw [pinName]
      split
      · next attributes name typed _ =>
        split
        · exact .inl rfl
        · next unnamed =>
          exact .inr ⟨attributes, name, typed, Option.not_isSome_iff_eq_none.mp unnamed, rfl⟩
      · exact .inl rfl
  · exact ⟨id, rfl, rfl, .inl rfl⟩

theorem names_newIds (distinct : Distinct pairs) (inside : ∀ pair ∈ pairs, pair.1 ∈ graph.nodes) :
    (graph.newIds pairs).names.Nodup ∧ ∀ id ∈ (graph.newIds pairs).names, id ∈ graph.ids := by
  constructor
  · refine distinct.nodes.sublist ((List.filter_sublist.map Prod.fst).trans ?_)
    rw [List.map_map]
    exact List.filter_sublist.map _
  · intro id known
    obtain ⟨new, found⟩ := Option.isSome_iff_exists.mp (Catalog.get?_isSome_iff.mpr known)
    obtain ⟨pair, member, rfl, -⟩ := (get?_newIds_iff distinct).mp found
    exact List.mem_map_of_mem (inside pair member)

theorem userEdges_renameAll (graph : Graph) (renamed : Catalog String)
    (pairs : List (CanvasNode × Node)) :
    (graph.renameAll renamed pairs).userEdges = graph.userEdges.map (renameEdge renamed) := by
  have drawn : (graph.userEdges.map (renameEdge renamed)).filter (fun edge => !edge.isContainment) =
      graph.userEdges.map (renameEdge renamed) := by
    refine List.filter_eq_self.mpr fun edge member => ?_
    obtain ⟨old, inside, rfl⟩ := List.mem_map.mp member
    have byHand : (renameEdge renamed old).isContainment = false := (mem_userEdges.mp inside).2
    rw [byHand]
    rfl
  have shown (nodes : List CanvasNode) :
      (containmentEdges { nodes }).filter (fun edge => !edge.isContainment) = [] := by
    refine List.filter_eq_nil_iff.mpr fun edge member => ?_
    obtain ⟨node, -, parent, -, rfl⟩ := mem_containmentEdges.mp member
    have contained : (containmentEdge node parent).isContainment = true :=
      Edge.isContainment_of_data rfl
    simp [contained]
  rw [userEdges, renameAll, List.filter_append, drawn, shown, List.append_nil]

theorem nodup_renamed (distinct : Distinct pairs) (open' : graph.Unobstructed pairs)
    (apart : graph.ids.Nodup) :
    ((graph.nodes.map (renameNode (graph.newIds pairs) pairs)).map (·.id)).Nodup := by
  rw [List.map_map]
  refine (List.nodup_map_iff_inj_on apart.of_map).mpr fun node member other member' same => ?_
  simp only [Function.comp, id_renameNode (renames_newIds graph pairs)] at same
  exact List.inj_on_of_nodup_map apart member member'
    (newId_inj distinct open' (List.mem_map_of_mem member) (List.mem_map_of_mem member') same)

/-- A graph whose nodes and edges have been renamed, with new ids that are apart, is a renaming. -/
theorem isRenaming_of_map {result : Graph} (distinct : Distinct pairs)
    (inside : ∀ pair ∈ pairs, pair.1 ∈ graph.nodes) (open' : graph.Unobstructed pairs)
    (apart : graph.ids.Nodup)
    (nodes : result.nodes = graph.nodes.map (renameNode (graph.newIds pairs) pairs))
    (edges : result.userEdges = graph.userEdges.map (renameEdge (graph.newIds pairs))) :
    IsRenaming graph (result, graph.newIds pairs) := by
  have renames := renames_newIds graph pairs
  -- a node and what becomes of it stand at the same place of the two lists
  have zipped {pair : CanvasNode × CanvasNode} (member : pair ∈ graph.nodes.zip result.nodes) :
      pair.1 ∈ graph.nodes ∧ pair.2 = renameNode (graph.newIds pairs) pairs pair.1 := by
    rw [nodes, ← List.map_prod_left_eq_zip, List.mem_map] at member
    obtain ⟨node, inside, rfl⟩ := member
    exact ⟨inside, rfl⟩
  constructor
  · show List.Forall₂ _ graph.nodes result.nodes
    rw [nodes, List.forall₂_map_right_iff]
    exact List.forall₂_same.mpr fun node _ => sameNode_renameNode renames node
  · show (result.nodes.map (·.id)).Nodup
    rw [nodes]
    exact nodup_renamed distinct open' apart
  · exact names_newIds distinct inside
  · intro old old' new found found'
    obtain ⟨pair, member, rfl, rfl, -⟩ := (get?_newIds_iff distinct).mp found
    obtain ⟨pair', member', rfl, construct, -⟩ := (get?_newIds_iff distinct).mp found'
    rw [distinct.constructs pair member pair' member' construct.symm]
  · intro old new found known
    obtain ⟨pair, member, rfl, rfl, moving, leaves⟩ := (get?_newIds_iff distinct).mp found
    by_contra unnamed
    refine leaves ⟨known, fun next among moving' same => unnamed ?_⟩
    refine Catalog.get?_isSome_iff.mp (Option.isSome_iff_exists.mpr ⟨next.2.id, ?_⟩)
    exact (get?_newIds_iff distinct).mpr ⟨next, among, same, rfl, moving',
      open' pair member next among moving moving' same.symm⟩
  · intro pair member other member' below
    obtain ⟨-, same⟩ := zipped member
    obtain ⟨-, same'⟩ := zipped member'
    rw [same, same', parent_renameNode, below, id_renameNode renames]
    rfl
  · show List.Forall₂ _ graph.userEdges result.userEdges
    rw [edges, List.forall₂_map_right_iff]
    refine List.forall₂_same.mpr fun edge _ => ⟨rfl, ⟨rfl, rfl⟩, rfl, ?_, ?_⟩
    · intro pair member same
      rw [(zipped member).2, id_renameNode renames, ← same]
      rfl
    · intro pair member same
      rw [(zipped member).2, id_renameNode renames, ← same]
      rfl

theorem renamed_rekey (graph : Graph) (parsed : List Node) (ranges : Catalog Span) :
    (graph.rekey parsed ranges).2 = graph.newIds (graph.matching parsed ranges) := by
  rw [rekey]
  split
  · next unmoved => exact (List.isEmpty_iff.mp unmoved).symm
  · rfl

/-- Moving the nodes of a graph to the ids of a text renames it and loses nothing if and only if no
new id is taken back from a node whose own id goes to another one. -/
theorem isRenaming_rekey_iff (apart : graph.ids.Nodup) (apart' : (parsed.map Node.id).Nodup)
    (ranges : Catalog Span) :
    IsRenaming graph (graph.rekey parsed ranges) ↔
      graph.Unobstructed (graph.matching parsed ranges) := by
  have distinct : Distinct (graph.matching parsed ranges) := distinct_matching apart'
  have inside : ∀ pair ∈ graph.matching parsed ranges, pair.1 ∈ graph.nodes :=
    fun pair member => (mem_matching member).1
  constructor
  · intro whole pair member next among moving moving' same stays
    -- the id of `next` is given away while `next` keeps it
    have found : (graph.rekey parsed ranges).2.get? pair.1.id = some pair.2.id := by
      rw [renamed_rekey]
      refine (get?_newIds_iff distinct).mpr ⟨pair, member, rfl, rfl, moving, fun stays' => ?_⟩
      exact stays'.2 next among moving' same.symm
    have known := whole.fresh _ _ found (same ▸ List.mem_map_of_mem (inside next among))
    obtain ⟨new, found'⟩ := Option.isSome_iff_exists.mp (Catalog.get?_isSome_iff.mpr known)
    rw [renamed_rekey] at found'
    obtain ⟨next', among', same', rfl, -, leaves⟩ := (get?_newIds_iff distinct).mp found'
    cases List.inj_on_of_nodup_map distinct.nodes among' among (same'.trans same)
    exact leaves stays
  · intro open'
    have ids := nodup_renamed distinct open' apart
    rw [rekey]
    split
    · next unmoved =>
      have none := List.isEmpty_iff.mp unmoved
      rw [← none]
      refine isRenaming_of_map distinct inside open' apart ?_ ?_
      · rw [none]
        exact (List.map_id'' (renameNode_nil _) _).symm
      · rw [none]
        exact (List.map_id'' (fun edge => rfl) _).symm
    · exact isRenaming_of_map distinct inside open' apart (collect_of_nodup ids)
        (userEdges_renameAll ..)

/-- Two variables, the first of which is to have the id of the second and the second the id "c", and
further nodes behind them. -/
def queue (others : List CanvasNode) : Graph where
  nodes :=
    { id := "a", content := .typed (.variableDecl { name := "x" }) } ::
    { id := "b", content := .typed (.variableDecl { name := "y" }) } :: others

/-- The variables as they are found in the text. -/
def queued : List Node :=
  [{ id := "b", content := .typed (.variableDecl { name := "x" }), span := some ⟨0, 26⟩ },
    { id := "c", content := .typed (.variableDecl { name := "y" }), span := some ⟨29, 55⟩ }]

/-- The spans of the blocks of the variables. -/
def queuedAt : Catalog Span := [("a", ⟨0, 27⟩), ("b", ⟨29, 56⟩)]

/-- Where the id "c" is free both variables move up. -/
theorem isRenaming_rekey_queue : (queue []).ids.Nodup ∧ (queued.map Node.id).Nodup ∧
    (queue []).IsRenaming ((queue []).rekey queued queuedAt) :=
  ⟨by decide, by decide,
    (isRenaming_rekey_iff (by decide) (by decide) queuedAt).mpr (by decide +kernel)⟩

/-- Where a call that is not found in the text keeps the id "c", the second variable keeps its own,
and is lost as the first one takes that. -/
theorem not_isRenaming_rekey_queue :
    ¬(queue [{ id := "c", content := .typed (.call {}) }]).IsRenaming
      ((queue [{ id := "c", content := .typed (.call {}) }]).rekey queued queuedAt) := by
  intro whole
  have same := whole.nodes.length_eq
  revert same
  decide +kernel

end Graph

end SourceCanvas
