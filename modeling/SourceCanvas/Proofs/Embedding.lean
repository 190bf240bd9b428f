import SourceCanvas.Proofs.Forests
import SourceCanvas.Proofs.Renaming

/-!
# The embedding of a graph in a text

The nodes of a graph and the nodes of a text both lie below each other, and matching embeds the one
forest in the other (`Graph.ForestEmbedding`): a node with a range goes to a construct at the top
level that starts in it, any other node to a child of the construct that its parent goes to, and
children of one kind keep their order (`sublist_of_pairUp`).

The search goes down in both forests at once. The graph may have nodes on a circle of parents, but
the constructs of a text descend from the top level, and none descends as many steps as there are
constructs (`Graph.Descends.depth_lt`). So the search ends, and its fuel never runs out
(`Graph.matchBelow_eq`).
-/

namespace SourceCanvas

/-! ## Pairs in order -/

section Pairing

variable {α β : Type} {fits : α → β → Bool} {as : List α} {available : List β} {pair later : α × β}

/-- Nothing of the first list is paired twice. -/
theorem eq_of_mem_pairUp_fst (distinct : as.Nodup) (paired : pair ∈ pairUp fits as available)
    (paired' : later ∈ pairUp fits as available) (same : pair.1 = later.1) : pair = later :=
  List.inj_on_of_nodup_map (distinct.sublist (pairUp_sublist fits as available)) paired paired' same

/-- Elements that the same things fit are paired in order. -/
theorem sublist_of_pairUp (distinct : as.Nodup) (paired : pair ∈ pairUp fits as available)
    (paired' : later ∈ pairUp fits as available) (alike : fits pair.1 = fits later.1)
    (before : [pair.1, later.1].Sublist as) : [pair.2, later.2].Sublist available := by
  induction as generalizing available with
  | nil => cases before
  | cons a rest ih =>
    obtain ⟨fresh, distinct⟩ := List.nodup_cons.mp distinct
    have second : later.1 ∈ rest := List.singleton_sublist.mp before.tail
    have behind (first : pair.1 ∈ rest) : [pair.1, later.1].Sublist rest := by
      refine (List.sublist_cons_iff.mp before).resolve_right ?_
      rintro ⟨_, same, -⟩
      exact fresh ((List.cons.inj same).1 ▸ first)
    rw [pairUp] at paired paired'
    split at paired
    · next b found =>
      rw [found] at paired'
      have inside' : later ∈ pairUp fits rest (available.eraseP (fits a)) := by
        refine (List.mem_cons.mp paired').resolve_left ?_
        rintro rfl
        exact fresh second
      rcases List.mem_cons.mp paired with rfl | inside
      · -- the first element takes the first thing that fits, so the other one is behind it
        obtain ⟨fitting, front, back, rfl, none⟩ := List.find?_eq_some_iff_append.mp found
        have left := (mem_of_mem_pairUp inside').2
        rw [List.eraseP_append_right _ (fun c member => by simpa using none c member),
          List.eraseP_cons_of_pos fitting] at left
        have fitting' : fits a later.2 = true := by
          rw [alike]
          exact fits_of_mem_pairUp inside'
        have member : later.2 ∈ back := by
          refine (List.mem_append.mp left).resolve_left fun early => ?_
          simpa [fitting'] using none later.2 early
        exact ((List.singleton_sublist.mpr member).cons_cons b).trans (List.sublist_append_right ..)
      · exact (ih distinct inside inside' (behind (mem_of_mem_pairUp inside).1)).trans
          List.eraseP_sublist
    · next missing =>
      rw [missing] at paired'
      exact ih distinct paired paired' (behind (mem_of_mem_pairUp paired).1)

end Pairing

namespace Graph

variable {graph : Graph} {parsed : List Node} {ranges : Catalog Span}
  {pair pair' above top : CanvasNode × Node} {root : String} {depth fuel : Nat}

/-- The pairs directly below a pair: children by kind and in order. -/
def pairsBelow (graph : Graph) (parsed : List Node) (above : CanvasNode × Node) :
    List (CanvasNode × Node) :=
  pairUp (fun child candidate => candidate.kindName == child.kindName)
    (graph.children above.1.id) (childrenOf parsed above.2.id)

/-- Only nodes that lie below no node of the graph have ranges. -/
def RootRanges (graph : Graph) (ranges : Catalog Span) : Prop :=
  ∀ node ∈ graph.nodes, (ranges.get? node.id).isSome = true → graph.isRoot node = true

instance (graph : Graph) (ranges : Catalog Span) : Decidable (graph.RootRanges ranges) :=
  inferInstanceAs (Decidable (∀ node ∈ graph.nodes, (ranges.get? node.id).isSome = true →
    graph.isRoot node = true))

/-- The nodes of a graph with the constructs of a text that they are matched with. -/
structure ForestEmbedding (graph : Graph) (parsed : List Node) (ranges : Catalog Span)
    (pairs : List (CanvasNode × Node)) : Prop where
  /-- nodes of the graph are matched with constructs of the text -/
  given : ∀ pair ∈ pairs, pair.1 ∈ graph.nodes ∧ pair.2 ∈ parsed
  /-- no node is matched twice -/
  nodes : (pairs.map (·.1.id)).Nodup
  /-- no construct is matched twice -/
  constructs : (pairs.map (·.2.id)).Nodup
  /-- a node and its construct are of one kind -/
  kinds : ∀ pair ∈ pairs, pair.2.kindName = pair.1.kindName
  /-- the construct of a node with a range is at the top level and starts in the range -/
  topmost : ∀ pair ∈ pairs, ∀ range, ranges.get? pair.1.id = some range →
    pair.2.isTopLevel = true ∧
      ∃ span, pair.2.span = some span ∧ range.start ≤ span.start ∧ span.start < range.stop
  /-- the construct of any other node is a child of the one that the parent is matched with -/
  below : ∀ pair ∈ pairs, ranges.get? pair.1.id = none →
    ∃ above ∈ pairs, pair.1.parent = some above.1.id ∧ pair.2 ∈ childrenOf parsed above.2.id
  /-- children of a matched node that are of one kind are matched in order -/
  ordered : ∀ above ∈ pairs, ∀ pair ∈ pairs, ∀ later ∈ pairs,
    pair.1.kindName = later.1.kindName →
    [pair.1, later.1].Sublist (graph.children above.1.id) →
    [pair.2, later.2].Sublist (childrenOf parsed above.2.id)

/-- The search for the nodes of a graph in a text comes to its end. -/
structure SearchEnds (graph : Graph) (parsed : List Node) (ranges : Catalog Span) : Prop where
  /-- from no matched pair can the search go down forever -/
  ends : ∀ pair, Matched graph parsed ranges pair →
    Acc (fun below above => below ∈ graph.pairsBelow parsed above) pair
  /-- below every matched pair the search goes on to all pairs of children, for its fuel is never
  used up -/
  unfolds : ∀ pair, Matched graph parsed ranges pair →
    graph.matchBelow parsed parsed.length pair =
      pair :: (graph.pairsBelow parsed pair).flatMap (graph.matchBelow parsed parsed.length)
  /-- every pair that can be reached is found -/
  complete : ∀ pair, pair ∈ graph.matching parsed ranges ↔ Matched graph parsed ranges pair

/-! ## The end of the search -/

/-- The constructs of a text as the nodes of a graph. -/
def shown (parsed : List Node) : Graph := { nodes := parsed.map (CanvasNode.place .origin) }

theorem ids_shown (parsed : List Node) : (shown parsed).ids = parsed.map Node.id := by
  rw [ids, shown, List.map_map]
  rfl

/-- A construct descends fewer steps than there are constructs. -/
theorem depth_lt_length {construct : CanvasNode} (apart : (parsed.map Node.id).Nodup)
    (descends : (shown parsed).Descends root depth construct) : depth < parsed.length := by
  have less := descends.depth_lt (by rwa [ids_shown])
  rwa [shown, List.length_map] at less

theorem mem_children_shown {node : Node} {id : String} (below : node ∈ childrenOf parsed id) :
    CanvasNode.place .origin node ∈ (shown parsed).children id := by
  obtain ⟨member, up⟩ := List.mem_filter.mp below
  have up : node.parent = some id := by simpa using up
  exact mem_children_iff.mpr ⟨List.mem_map_of_mem member, up⟩

theorem mem_children_of_mem_pairsBelow (below : pair ∈ graph.pairsBelow parsed above) :
    pair.1 ∈ graph.children above.1.id ∧ pair.2 ∈ childrenOf parsed above.2.id :=
  mem_of_mem_pairUp below

/-- The construct of a matched pair descends from the top level of the text. -/
theorem Matched.descends (matched : Matched graph parsed ranges pair) :
    ∃ root depth, (shown parsed).Descends root depth (.place .origin pair.2) := by
  induction matched with
  | @top found paired =>
    obtain ⟨member, top⟩ := List.mem_filter.mp (mem_of_mem_pairUp paired).2
    have free : found.2.parent = none := Option.isNone_iff_eq_none.mp top
    refine ⟨_, 0, .top (List.mem_map_of_mem member) ?_ rfl⟩
    rw [isRoot]
    simp [CanvasNode.place, free]
  | under matched paired ih =>
    obtain ⟨root, depth, descends⟩ := ih
    exact ⟨root, depth + 1, descends.of_child (mem_children_shown (mem_of_mem_pairUp paired).2)⟩

theorem matchBelow_succ (graph : Graph) (parsed : List Node) (fuel : Nat)
    (pair : CanvasNode × Node) :
    graph.matchBelow parsed (fuel + 1) pair =
      pair :: (graph.pairsBelow parsed pair).flatMap (graph.matchBelow parsed fuel) := rfl

/-- Fuel makes no difference where it is enough. -/
theorem matchBelow_of_enough {fuel' : Nat} (apart : (parsed.map Node.id).Nodup)
    (descends : (shown parsed).Descends root depth (.place .origin pair.2))
    (enough : parsed.length ≤ fuel + depth) (enough' : parsed.length ≤ fuel' + depth) :
    graph.matchBelow parsed fuel pair = graph.matchBelow parsed fuel' pair := by
  induction fuel generalizing fuel' depth pair with
  | zero =>
    have less := depth_lt_length apart descends
    omega
  | succ fuel ih =>
    have less := depth_lt_length apart descends
    cases fuel' with
    | zero => omega
    | succ fuel' =>
      rw [matchBelow_succ, matchBelow_succ]
      refine congrArg _ (List.flatMap_congr fun child below => ?_)
      have below' := mem_children_shown (mem_children_of_mem_pairsBelow below).2
      exact ih (descends.of_child below') (by omega) (by omega)

/-- Below a matched pair come the pairs of its children with those below them. -/
theorem matchBelow_eq (apart : (parsed.map Node.id).Nodup)
    (matched : Matched graph parsed ranges pair) :
    graph.matchBelow parsed parsed.length pair =
      pair :: (graph.pairsBelow parsed pair).flatMap (graph.matchBelow parsed parsed.length) := by
  obtain ⟨root, depth, descends⟩ := matched.descends
  rw [← matchBelow_succ]
  exact matchBelow_of_enough apart descends (by omega) (by omega)

/-- From a matched pair the search does not go down forever. -/
theorem acc_of_matched (apart : (parsed.map Node.id).Nodup)
    (matched : Matched graph parsed ranges pair) :
    Acc (fun below above => below ∈ graph.pairsBelow parsed above) pair := by
  obtain ⟨root, depth, descends⟩ := matched.descends
  have distinct : (shown parsed).ids.Nodup := by rwa [ids_shown]
  generalize seen : CanvasNode.place .origin pair.2 = construct at descends
  -- by induction on the constructs below, whatever nodes they are paired with
  suffices every : ∀ other : CanvasNode × Node, CanvasNode.place .origin other.2 = construct →
      Acc (fun below above => below ∈ graph.pairsBelow parsed above) other from every pair seen
  apply Descends.from_children distinct _ descends
  rintro depth _ descends step other rfl
  refine .intro other ?_
  intro below paired
  exact step _ (mem_children_shown (mem_children_of_mem_pairsBelow paired).2) below rfl

/-! ## What is found -/

/-- Whatever is found below a pair, its children are found there too. -/
theorem mem_matchBelow_of_below (apart : (parsed.map Node.id).Nodup)
    (matched : Matched graph parsed ranges top)
    (inside : above ∈ graph.matchBelow parsed parsed.length top)
    (below : pair ∈ graph.pairsBelow parsed above) :
    pair ∈ graph.matchBelow parsed parsed.length top := by
  have ends := acc_of_matched apart matched
  induction ends with
  | intro top _ ih =>
    rw [matchBelow_eq apart matched] at inside ⊢
    rcases List.mem_cons.mp inside with rfl | inside
    · refine List.mem_cons_of_mem _ (List.mem_flatMap.mpr ⟨pair, below, ?_⟩)
      rw [matchBelow_eq apart (.under matched below)]
      exact List.mem_cons_self ..
    · obtain ⟨child, paired, inside⟩ := List.mem_flatMap.mp inside
      have found := ih child paired (.under matched paired) inside
      exact List.mem_cons_of_mem _ (List.mem_flatMap.mpr ⟨child, paired, found⟩)

/-- Every pair that can be reached is come across. -/
theorem mem_encounters (apart : (parsed.map Node.id).Nodup)
    (matched : Matched graph parsed ranges pair) : pair ∈ graph.encounters parsed ranges := by
  induction matched with
  | @top found paired =>
    refine List.mem_flatMap.mpr ⟨found, paired, ?_⟩
    rw [matchBelow_eq apart (.top paired)]
    exact List.mem_cons_self ..
  | under matched paired ih =>
    obtain ⟨top, first, inside⟩ := List.mem_flatMap.mp ih
    exact List.mem_flatMap.mpr
      ⟨top, first, mem_matchBelow_of_below apart (.top first) inside paired⟩

theorem mem_ids_latest {id : String} {pairs : List (CanvasNode × Node)} :
    id ∈ (latest pairs).map (·.1.id) ↔ id ∈ pairs.map (·.1.id) := by
  have step (found : List (CanvasNode × Node)) :
      id ∈ (pairs.foldl (fun found pair => insertPair pair found) found).map (·.1.id) ↔
        id ∈ found.map (·.1.id) ∨ id ∈ pairs.map (·.1.id) := by
    induction pairs generalizing found with
    | nil => simp
    | cons pair rest ih =>
      rw [List.foldl_cons, ih, ids_insertPair, List.map_cons, List.mem_cons, ← or_assoc]
      refine or_congr_left ?_
      split
      · next known =>
        refine ⟨.inl, ?_⟩
        rintro (before | rfl)
        · exact before
        · exact known
      · simp
  rw [latest, step []]
  simp

/-! ## Pairs of one node -/

theorem startsIn_iff {node : CanvasNode} {construct : Node} :
    startsIn ranges node construct = true ↔ construct.kindName = node.kindName ∧
      ∃ range span, ranges.get? node.id = some range ∧ construct.span = some span ∧
        range.start ≤ span.start ∧ span.start < range.stop := by
  rw [startsIn, Bool.and_eq_true, beq_iff_eq]
  refine and_congr_right fun _ => ?_
  cases ranges.get? node.id <;> cases construct.span <;> simp

theorem Matched.mem_nodes (matched : Matched graph parsed ranges pair) : pair.1 ∈ graph.nodes := by
  cases matched with
  | top paired => exact (mem_of_mem_pairUp paired).1
  | under matched paired => exact (mem_children_iff.mp (mem_of_mem_pairUp paired).1).1

theorem Matched.kind (matched : Matched graph parsed ranges pair) :
    pair.2.kindName = pair.1.kindName := by
  cases matched with
  | top paired => exact (startsIn_iff.mp (fits_of_mem_pairUp paired)).1
  | under matched paired => exact beq_iff_eq.mp (fits_of_mem_pairUp paired)

/-- A node with a range is matched at the top level. -/
theorem Matched.of_range {range : Span} (rooted : graph.RootRanges ranges)
    (matched : Matched graph parsed ranges pair) (placed : ranges.get? pair.1.id = some range) :
    pair ∈ pairUp (startsIn ranges) graph.nodes (parsed.filter Node.isTopLevel) := by
  cases matched with
  | top paired => exact paired
  | under matched paired =>
    obtain ⟨member, up⟩ := mem_children_iff.mp (mem_of_mem_pairUp paired).1
    have isRoot := rooted _ member (by rw [placed]; rfl)
    rw [not_isRoot_of_parent matched.mem_nodes up] at isRoot
    cases isRoot

/-- A node without a range is matched below its parent. -/
theorem Matched.of_no_range (matched : Matched graph parsed ranges pair)
    (unplaced : ranges.get? pair.1.id = none) :
    ∃ above, Matched graph parsed ranges above ∧ pair ∈ graph.pairsBelow parsed above := by
  cases matched with
  | top paired =>
    obtain ⟨-, range, span, placed, -⟩ := startsIn_iff.mp (fits_of_mem_pairUp paired)
    rw [unplaced] at placed
    cases placed
  | under matched paired => exact ⟨_, matched, paired⟩

/-- A child of a node is matched below a pair of this node. -/
theorem Matched.of_child {parent : CanvasNode} (distinct : graph.ids.Nodup)
    (rooted : graph.RootRanges ranges) (matched : Matched graph parsed ranges pair)
    (member : parent ∈ graph.nodes) (child : pair.1 ∈ graph.children parent.id) :
    ∃ above, Matched graph parsed ranges above ∧ above.1 = parent ∧
      pair ∈ graph.pairsBelow parsed above := by
  obtain ⟨-, up⟩ := mem_children_iff.mp child
  cases matched with
  | top paired =>
    obtain ⟨-, range, span, placed, -⟩ := startsIn_iff.mp (fits_of_mem_pairUp paired)
    have isRoot := rooted _ (mem_of_mem_pairUp paired).1 (by rw [placed]; rfl)
    rw [not_isRoot_of_parent member up] at isRoot
    cases isRoot
  | @under above _ matched paired =>
    obtain ⟨-, up'⟩ := mem_children_iff.mp (mem_of_mem_pairUp paired).1
    rw [up] at up'
    exact ⟨above, matched, (eq_of_id distinct member matched.mem_nodes (Option.some.inj up')).symm,
      paired⟩

/-- No node is matched with two constructs. -/
theorem eq_of_matched_node (distinct : graph.ids.Nodup) (rooted : graph.RootRanges ranges)
    (matched : Matched graph parsed ranges pair) (matched' : Matched graph parsed ranges pair')
    (same : pair.1 = pair'.1) : pair = pair' := by
  have nodes : graph.nodes.Nodup := .of_map _ distinct
  induction matched generalizing pair' with
  | top paired =>
    obtain ⟨-, range, span, placed, -⟩ := startsIn_iff.mp (fits_of_mem_pairUp paired)
    rw [same] at placed
    exact eq_of_mem_pairUp_fst nodes paired (matched'.of_range rooted placed) same
  | under matched paired ih =>
    -- both pairs stand below the pair of the one parent
    have child := (mem_of_mem_pairUp paired).1
    rw [same] at child
    obtain ⟨above', matched'', parent, paired'⟩ :=
      matched'.of_child distinct rooted matched.mem_nodes child
    cases ih matched'' parent.symm
    exact eq_of_mem_pairUp_fst (nodes.filter _) paired paired' same

theorem mem_matching_iff (distinct : graph.ids.Nodup) (apart : (parsed.map Node.id).Nodup)
    (rooted : graph.RootRanges ranges) :
    pair ∈ graph.matching parsed ranges ↔ Matched graph parsed ranges pair := by
  refine ⟨matched_of_mem_matching, ?_⟩
  intro matched
  have known := mem_ids_latest.mpr (List.mem_map_of_mem (mem_encounters apart matched))
  obtain ⟨pair', member, named⟩ := List.mem_map.mp known
  have matched' := matched_of_mem_matching member
  have same := eq_of_id distinct matched'.mem_nodes matched.mem_nodes named
  rw [← eq_of_matched_node distinct rooted matched' matched same]
  exact member

/-- The search ends, and finds all pairs that it can reach. -/
theorem searchEnds (distinct : graph.ids.Nodup) (apart : (parsed.map Node.id).Nodup)
    (rooted : graph.RootRanges ranges) : graph.SearchEnds parsed ranges where
  ends _ := acc_of_matched apart
  unfolds _ := matchBelow_eq apart
  complete _ := mem_matching_iff distinct apart rooted

/-- Children of a matched node that are of one kind are matched in order. -/
theorem sublist_of_matched (distinct : graph.ids.Nodup) (rooted : graph.RootRanges ranges)
    {later : CanvasNode × Node} (matched : Matched graph parsed ranges above)
    (matched' : Matched graph parsed ranges pair) (matched'' : Matched graph parsed ranges later)
    (alike : pair.1.kindName = later.1.kindName)
    (before : [pair.1, later.1].Sublist (graph.children above.1.id)) :
    [pair.2, later.2].Sublist (childrenOf parsed above.2.id) := by
  have nodes : graph.nodes.Nodup := .of_map _ distinct
  have below {pair : CanvasNode × Node} (matched' : Matched graph parsed ranges pair)
      (child : pair.1 ∈ graph.children above.1.id) : pair ∈ graph.pairsBelow parsed above := by
    obtain ⟨above', matched'', parent, paired⟩ :=
      matched'.of_child distinct rooted matched.mem_nodes child
    rwa [eq_of_matched_node distinct rooted matched matched'' parent.symm]
  have first := below matched' (before.subset (List.mem_cons_self ..))
  have second := below matched'' (before.subset (List.mem_cons_of_mem _ (List.mem_cons_self ..)))
  refine sublist_of_pairUp (nodes.filter _) first second ?_ before
  funext candidate
  rw [alike]

/-- **Matching embeds the forest of a graph in that of a text.** If the ids of a graph and of the
constructs of a text tell them apart, and only nodes that lie below no other have ranges, then the
pairs that are found are an embedding. The search for them ends, also where other nodes of the graph
lie below each other in a circle. -/
theorem forestEmbedding_matching (distinct : graph.ids.Nodup) (apart : (parsed.map Node.id).Nodup)
    (rooted : graph.RootRanges ranges) :
    graph.ForestEmbedding parsed ranges (graph.matching parsed ranges) ∧
      graph.SearchEnds parsed ranges := by
  have pairs : Distinct (graph.matching parsed ranges) := distinct_matching apart
  refine ⟨?_, searchEnds distinct apart rooted⟩
  constructor
  · intro pair member
    exact mem_matching member
  · exact pairs.nodes
  · exact (List.nodup_map_iff_inj_on (.of_map _ pairs.nodes)).mpr pairs.constructs
  · intro pair member
    exact (matched_of_mem_matching member).kind
  · intro pair member range placed
    have paired := (matched_of_mem_matching member).of_range rooted placed
    obtain ⟨-, range', span, placed', known, starts⟩ := startsIn_iff.mp (fits_of_mem_pairUp paired)
    rw [placed] at placed'
    cases placed'
    exact ⟨(List.mem_filter.mp (mem_of_mem_pairUp paired).2).2, span, known, starts⟩
  · intro pair member unplaced
    obtain ⟨above, matched, paired⟩ := (matched_of_mem_matching member).of_no_range unplaced
    obtain ⟨child, candidate⟩ := mem_children_of_mem_pairsBelow paired
    exact ⟨above, (mem_matching_iff distinct apart rooted).mpr matched,
      (mem_children_iff.mp child).2, candidate⟩
  · intro above member pair member' later member'' alike before
    exact sublist_of_matched distinct rooted (matched_of_mem_matching member)
      (matched_of_mem_matching member') (matched_of_mem_matching member'') alike before

/-- A function with two calls below it, and two calls that lie below each other. -/
def circled : Graph where
  nodes := [{ id := "f", content := .typed (.functionDecl { name := "f" }) },
    { id := "p", content := .typed (.call {}), parent := some "q" },
    { id := "x", content := .typed (.call {}), parent := some "f" },
    { id := "q", content := .typed (.call {}), parent := some "p" },
    { id := "y", content := .typed (.call {}), parent := some "f" }]

/-- The function as it is found in the text, with a variable between its calls. -/
def circledText : List Node :=
  [{ id := "0", content := .typed (.functionDecl { name := "f" }), span := some ⟨0, 60⟩ },
    { id := "1", content := .typed (.call {}), span := some ⟨20, 24⟩, parent := some "0" },
    { id := "2", content := .typed (.variableDecl {}), span := some ⟨26, 40⟩, parent := some "0" },
    { id := "3", content := .typed (.call {}), span := some ⟨42, 46⟩, parent := some "0" }]

/-- The function and its calls are found, and the calls on the circle are not. -/
theorem forestEmbedding_matching_circled :
    circled.RootRanges [("f", ⟨0, 61⟩)] ∧
    circled.ForestEmbedding circledText [("f", ⟨0, 61⟩)]
      (circled.matching circledText [("f", ⟨0, 61⟩)]) ∧
    circled.SearchEnds circledText [("f", ⟨0, 61⟩)] ∧
    (circled.matching circledText [("f", ⟨0, 61⟩)]).map (fun pair => (pair.1.id, pair.2.id)) =
      [("f", "0"), ("x", "1"), ("y", "3")] := by
  have rooted : circled.RootRanges [("f", ⟨0, 61⟩)] := by decide
  have apart : (circledText.map Node.id).Nodup := by decide
  obtain ⟨embedding, ends⟩ := forestEmbedding_matching (show circled.ids.Nodup by decide) apart
    rooted
  exact ⟨rooted, embedding, ends, by decide +kernel⟩

end Graph

end SourceCanvas
