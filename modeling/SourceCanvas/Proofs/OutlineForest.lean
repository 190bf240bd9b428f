import SourceCanvas.Proofs.OutlineLayout

/-!
# The forest of the nodes of a text

The nodes that `parse` gives are the preorder listing of a forest of spans (`PreorderForest`,
`preorderForest_of_parse`): of two nodes the earlier one contains the later one or ends before it
starts, the parent of a node is the smallest node around it, and a node without a parent lies inside
no other.

A listing is built by two operations, and so is the invariant (`Listing`): a construct is put before
the listing of its children (`Listing.cons`), and listings that lie one behind the other are joined
(`Listing.append`). What the invariant says about parents looks at earlier nodes only. Later nodes
never contain earlier ones, so nothing has to be said about them again when a listing grows.
-/

namespace SourceCanvas

/-! ## Places of nodes -/

namespace Node

/-- The span of a node strictly contains that of another one. -/
def Covers (outer inner : Node) : Prop :=
  ∃ span span', outer.span = some span ∧ inner.span = some span' ∧
    span.start ≤ span'.start ∧ span'.stop ≤ span.stop ∧ span' ≠ span

/-- A node ends before another one starts. -/
def EndsBefore (first second : Node) : Prop :=
  ∃ span span', first.span = some span ∧ second.span = some span' ∧ span.stop ≤ span'.start

/-- A node starts before another one, or starts with it and ends after it. -/
def ListedBefore (first second : Node) : Prop :=
  ∃ span span', first.span = some span ∧ second.span = some span' ∧
    (span.start < span'.start ∨ span.start = span'.start ∧ span'.stop < span.stop)

/-- A node takes up a part of a range that is not empty, and its id follows from that and its
kind. -/
def LocatedIn (lo hi : Nat) (node : Node) : Prop :=
  ∃ span, node.span = some span ∧ lo ≤ span.start ∧ span.start < span.stop ∧ span.stop ≤ hi ∧
    node.id = nodeId span.start span.stop node.kindName

variable {lo lo' mid hi hi' : Nat} {node other : Node}

theorem LocatedIn.widen (located : node.LocatedIn lo hi) (start : lo' ≤ lo) (stop : hi ≤ hi') :
    node.LocatedIn lo' hi' := by
  obtain ⟨span, known, le, filled, le', id⟩ := located
  exact ⟨span, known, by omega, filled, by omega, id⟩

/-- Nodes in ranges one behind the other lie one behind the other. -/
theorem LocatedIn.endsBefore (located : node.LocatedIn lo mid) (located' : other.LocatedIn mid hi) :
    node.EndsBefore other := by
  obtain ⟨span, known, -, -, stop, -⟩ := located
  obtain ⟨span', known', start, -, -, -⟩ := located'
  exact ⟨span, span', known, known', Nat.le_trans stop start⟩

/-- A node does not cover what lies behind it. -/
theorem EndsBefore.not_covers (apart : node.EndsBefore other) (located : other.LocatedIn lo hi) :
    ¬node.Covers other := by
  rintro ⟨span, span', known, known', -, inside, -⟩
  obtain ⟨first, second, same, same', apart⟩ := apart
  obtain ⟨third, same'', -, filled, -, -⟩ := located
  rw [known] at same
  rw [known'] at same' same''
  cases same
  cases same'
  cases same''
  omega

end Node

/-! ## Listings -/

/-- What is known of the place of a node among the nodes before it: either it has the parent of the
whole listing and no node before it covers it, or its parent is the smallest of those that do. -/
def Below (parent : Option String) (before : List Node) (node : Node) : Prop :=
  (node.parent = parent ∧ ∀ other ∈ before, ¬other.Covers node) ∨
    ∃ outer ∈ before, node.parent = some outer.id ∧ outer.Covers node ∧
      ∀ other ∈ before, other.Covers node → other = outer ∨ other.Covers outer

/-- A preorder listing of constructs that lie one after the other in a range, below one parent. -/
structure Listing (parent : Option String) (lo hi : Nat) (nodes : List Node) : Prop where
  located : ∀ node ∈ nodes, node.LocatedIn lo hi
  ordered : nodes.Pairwise fun first second => first.Covers second ∨ first.EndsBefore second
  below : ∀ before node after, nodes = before ++ node :: after → Below parent before node

namespace Listing

variable {parent : Option String} {lo lo' mid hi hi' : Nat} {head : Node} {nodes others : List Node}

theorem nil : Listing parent lo hi [] where
  located := by simp
  ordered := .nil
  below before node after parts := by simp at parts

theorem widen (listing : Listing parent lo hi nodes) (start : lo' ≤ lo) (stop : hi ≤ hi') :
    Listing parent lo' hi' nodes where
  located node member := (listing.located node member).widen start stop
  ordered := listing.ordered
  below := listing.below

/-- A node is put before nodes that it covers and that have it for their parent. -/
theorem cons (located : head.LocatedIn lo hi) (parents : head.parent = parent)
    (covers : ∀ node ∈ nodes, head.Covers node) (listing : Listing (some head.id) lo hi nodes) :
    Listing parent lo hi (head :: nodes) where
  located node member := by
    rcases List.mem_cons.mp member with rfl | member
    · exact located
    · exact listing.located node member
  ordered := .cons (fun node member => .inl (covers node member)) listing.ordered
  below before node after parts := by
    rcases List.cons_eq_append_iff.mp parts with ⟨rfl, same⟩ | ⟨between, rfl, inner⟩
    · cases same
      exact .inl ⟨parents, by simp⟩
    · have member : node ∈ nodes := by simp [inner]
      rcases listing.below between node after inner with ⟨below, free⟩ | ⟨outer, inside, found⟩
      · refine .inr ⟨head, List.mem_cons_self .., below, covers node member, ?_⟩
        intro other among covered
        rcases List.mem_cons.mp among with rfl | among
        · exact .inl rfl
        · exact absurd covered (free other among)
      · obtain ⟨below, covered, smallest⟩ := found
        refine .inr ⟨outer, List.mem_cons_of_mem _ inside, below, covered, ?_⟩
        intro other among covered'
        rcases List.mem_cons.mp among with rfl | among
        · exact .inr (covers outer (by simp [inner, inside]))
        · exact smallest other among covered'

/-- Listings that lie one behind the other are joined. -/
theorem append (listing : Listing parent lo mid nodes) (listing' : Listing parent mid hi others)
    (start : lo ≤ mid) (stop : mid ≤ hi) : Listing parent lo hi (nodes ++ others) where
  located node member := by
    rcases List.mem_append.mp member with member | member
    · exact (listing.located node member).widen (Nat.le_refl _) stop
    · exact (listing'.located node member).widen start (Nat.le_refl _)
  ordered := List.pairwise_append.mpr ⟨listing.ordered, listing'.ordered,
    fun first member second member' =>
      .inr ((listing.located first member).endsBefore (listing'.located second member'))⟩
  below before node after parts := by
    -- What lies before the second listing covers none of its nodes.
    have later (between : List Node) (inner : others = between ++ node :: after) :
        Below parent (nodes ++ between) node := by
      have located : node.LocatedIn mid hi := listing'.located node (by simp [inner])
      have apart (other : Node) (member : other ∈ nodes) : ¬other.Covers node :=
        ((listing.located other member).endsBefore located).not_covers located
      rcases listing'.below between node after inner with ⟨below, free⟩ | ⟨outer, inside, found⟩
      · refine .inl ⟨below, ?_⟩
        intro other among
        rcases List.mem_append.mp among with among | among
        · exact apart other among
        · exact free other among
      · obtain ⟨below, covered, smallest⟩ := found
        refine .inr ⟨outer, List.mem_append_right _ inside, below, covered, ?_⟩
        intro other among covered'
        rcases List.mem_append.mp among with among | among
        · exact absurd covered' (apart other among)
        · exact smallest other among covered'
    rcases List.append_eq_append_iff.mp parts with ⟨between, rfl, inner⟩ | ⟨between, same, inner⟩
    · exact later between inner
    · cases between with
      | nil =>
        rw [same, List.append_nil] at later
        simpa using later [] inner.symm
      | cons first between =>
        cases inner
        exact listing.below before node between same

end Listing

/-! ## Nodes of constructs -/

namespace Construct

variable {parent : Option String} {lo hi : Nat} {construct : Construct} {constructs : List Construct}

theorem mem_listNodes {node : Node} :
    node ∈ listNodes parent constructs ↔
      ∃ construct ∈ constructs, node ∈ construct.nodes parent := by
  induction constructs with
  | nil => simp [listNodes]
  | cons construct constructs ih => simp [listNodes, ih]

theorem listing_listNodes (row : InRow hi lo (constructs.map Construct.span))
    (each : ∀ construct ∈ constructs, Listing parent construct.span.start construct.span.stop
      (construct.nodes parent)) :
    Listing parent lo hi (listNodes parent constructs) := by
  induction constructs generalizing lo with
  | nil => exact .nil
  | cons construct constructs ih =>
    obtain ⟨start, filled, row⟩ := row
    have first := each construct (List.mem_cons_self ..)
    have others := ih row fun other member => each other (List.mem_cons_of_mem _ member)
    rw [listNodes]
    exact (first.widen start (Nat.le_refl _)).append others
      (Nat.le_trans start (Nat.le_of_lt filled)) row.le

theorem listing_nodes (nested : construct.Nested) :
    Listing parent construct.span.start construct.span.stop (construct.nodes parent) := by
  induction nested generalizing parent with
  | @mk attributes span children filled row smaller nested ih =>
    rw [nodes]
    refine .cons ⟨span, rfl, Nat.le_refl _, filled, Nat.le_refl _, rfl⟩ rfl ?_
      (listing_listNodes row fun child member => ih child member)
    intro node member
    -- A node below lies inside a child, which is smaller than the whole.
    obtain ⟨child, child_mem, member⟩ := mem_listNodes.mp member
    obtain ⟨span', known, start, -, stop, -⟩ := (ih child child_mem).located node member
    obtain ⟨start', -, stop'⟩ := row.bounds (List.mem_map_of_mem child_mem)
    refine ⟨span, span', rfl, known, Nat.le_trans start' start, Nat.le_trans stop stop', ?_⟩
    rintro rfl
    exact smaller child child_mem (Span.eq_of_within start stop start' stop')

end Construct

/-! ## The forest -/

/-- Nodes that are the preorder listing of a forest of spans in a text of a given length. -/
structure PreorderForest (length : Nat) (nodes : List Node) : Prop where
  /-- every node takes up a part of the text that is not empty, and has the id for it -/
  located : ∀ node ∈ nodes, node.LocatedIn 0 length
  /-- of two nodes the earlier one strictly contains the later one or ends before it starts -/
  laminar : nodes.Pairwise fun first second => first.Covers second ∨ first.EndsBefore second
  /-- starts ascend, and nodes that start together descend by their ends -/
  sorted : nodes.Pairwise Node.ListedBefore
  /-- no two nodes have the same place and kind -/
  unshared : nodes.Pairwise fun first second =>
    (first.span, first.kindName) ≠ (second.span, second.kindName)
  /-- exactly the nodes that lie inside no other have no parent -/
  topmost : ∀ node ∈ nodes, node.parent = none ↔ ∀ other ∈ nodes, ¬other.Covers node
  /-- the parent is an earlier node, the smallest of all that contain the node -/
  enclosed : ∀ before node after id, nodes = before ++ node :: after → node.parent = some id →
    ∃ outer ∈ before, outer.id = id ∧ outer.Covers node ∧
      ∀ other ∈ nodes, other.Covers node → other = outer ∨ other.Covers outer
  /-- the ids are different where different places and kinds have different ids -/
  nodup : (∀ first ∈ nodes, ∀ second ∈ nodes, first.id = second.id →
    (first.span, first.kindName) = (second.span, second.kindName)) → (nodes.map Node.id).Nodup

namespace Node

variable {lo hi : Nat} {first second : Node}

/-- A node that contains another one is not covered by it. -/
theorem Covers.asymm (covers : first.Covers second) : ¬second.Covers first := by
  rintro ⟨outer, inner, known, known', start, stop, -⟩
  obtain ⟨outer', inner', same, same', start', stop', different⟩ := covers
  rw [known'] at same
  rw [known] at same'
  cases same
  cases same'
  exact different (Span.eq_of_within start stop start' stop')

theorem EndsBefore.not_covered (apart : first.EndsBefore second)
    (located : first.LocatedIn lo hi) : ¬second.Covers first := by
  rintro ⟨outer, inner, known, known', start, -, -⟩
  obtain ⟨span, same, -, filled, -, -⟩ := located
  obtain ⟨inner', outer', same', same'', apart⟩ := apart
  rw [known'] at same same'
  rw [known] at same''
  cases same
  cases same'
  cases same''
  omega

theorem listedBefore (located : first.LocatedIn lo hi)
    (ordered : first.Covers second ∨ first.EndsBefore second) : first.ListedBefore second := by
  rcases ordered with ⟨outer, inner, known, known', start, stop, different⟩ | apart
  · refine ⟨outer, inner, known, known', ?_⟩
    by_cases same : outer.start = inner.start
    · refine .inr ⟨same, Nat.lt_of_le_of_ne stop ?_⟩
      intro same'
      exact different (Span.eq_of_within (Nat.le_of_eq same.symm) (Nat.le_of_eq same'.symm) start
        stop)
    · exact .inl (Nat.lt_of_le_of_ne start same)
  · obtain ⟨span, known, -, filled, -, -⟩ := located
    obtain ⟨span', span'', known', known'', apart⟩ := apart
    rw [known] at known'
    cases known'
    exact ⟨span, span'', known, known'', .inl (Nat.lt_of_lt_of_le filled apart)⟩

theorem ListedBefore.span_ne (listed : first.ListedBefore second) : first.span ≠ second.span := by
  intro same
  obtain ⟨span, span', known, known', order⟩ := listed
  rw [same, known'] at known
  cases known
  omega

end Node

namespace Listing

variable {length : Nat} {nodes : List Node}

/-- A node of a listing is covered by earlier nodes only. -/
theorem covers_of_split {parent : Option String} {lo hi : Nat} {before after : List Node}
    {node other : Node} (listing : Listing parent lo hi nodes)
    (parts : nodes = before ++ node :: after) (member : other ∈ nodes)
    (covers : other.Covers node) : other ∈ before := by
  rw [parts, List.mem_append, List.mem_cons] at member
  rcases member with member | rfl | member
  · exact member
  · exact absurd covers covers.asymm
  · have ordered := listing.ordered
    rw [parts, List.pairwise_append, List.pairwise_cons] at ordered
    rcases ordered.2.1.1 other member with covered | apart
    · exact absurd covers covered.asymm
    · exact absurd covers (apart.not_covered (listing.located node (by simp [parts])))

theorem sorted {parent : Option String} {lo hi : Nat} (listing : Listing parent lo hi nodes) :
    nodes.Pairwise Node.ListedBefore :=
  listing.ordered.imp_of_mem fun member _ ordered =>
    Node.listedBefore (listing.located _ member) ordered

/-- A listing without a parent is a forest. -/
theorem preorderForest (listing : Listing none 0 length nodes) : PreorderForest length nodes where
  located := listing.located
  laminar := listing.ordered
  sorted := listing.sorted
  unshared := listing.sorted.imp fun listed same => listed.span_ne (Prod.mk.inj same).1
  topmost node member := by
    obtain ⟨before, after, parts⟩ := List.append_of_mem member
    rcases listing.below before node after parts with ⟨topmost, free⟩ | ⟨outer, inside, found⟩
    · refine ⟨fun _ other among covers => ?_, fun _ => topmost⟩
      exact free other (listing.covers_of_split parts among covers) covers
    · obtain ⟨below, covers, -⟩ := found
      refine ⟨fun topmost => ?_, fun free => ?_⟩
      · rw [below] at topmost
        cases topmost
      · exact absurd covers (free outer (by simp [parts, inside]))
  enclosed before node after id parts parents := by
    rcases listing.below before node after parts with ⟨topmost, -⟩ | ⟨outer, inside, found⟩
    · rw [topmost] at parents
      cases parents
    · obtain ⟨below, covers, smallest⟩ := found
      rw [below] at parents
      refine ⟨outer, inside, Option.some.inj parents, covers, ?_⟩
      intro other among covers'
      exact smallest other (listing.covers_of_split parts among covers') covers'
  nodup injective := by
    rw [List.Nodup, List.pairwise_map]
    refine listing.sorted.imp_of_mem fun member member' listed same => ?_
    exact listed.span_ne (Prod.mk.inj (injective _ member _ member' same)).1

end Listing

theorem preorderForest_of_outline {reclassify : Bool} {text : String} {constructs : List Construct}
    (read : outline reclassify text = .ok constructs) :
    PreorderForest text.length (Construct.listNodes none constructs) := by
  have row := row_of_outline read
  exact (Construct.listing_listNodes row.1 fun construct member =>
    Construct.listing_nodes (row.2 construct member)).preorderForest

/-- **The nodes of a text** that can be cut into tokens are the preorder listing of a forest of
spans, with or without reclassified names and whatever statements cannot be read. -/
theorem preorderForest_of_parse (reclassify : Bool) {text : String}
    (tokenizes : (tokenize text).isOk = true) :
    ∃ nodes, parse reclassify text = .ok nodes ∧ PreorderForest text.length nodes := by
  cases tokenized : tokenize text with
  | error error =>
    rw [tokenized] at tokenizes
    cases tokenizes
  | ok tokens =>
    have outlined : outline reclassify text =
        .ok (Reading.outline ⟨text.toList, reclassify⟩ tokens) := by
      rw [outline, tokenized]
      rfl
    refine ⟨_, ?_, preorderForest_of_outline outlined⟩
    rw [parse, outlined]
    rfl

theorem preorderForest_of_parse_call :
    ∃ nodes, parse true "const a = f(1);" = .ok nodes ∧ PreorderForest 15 nodes :=
  preorderForest_of_parse true (by decide +kernel)

end SourceCanvas
