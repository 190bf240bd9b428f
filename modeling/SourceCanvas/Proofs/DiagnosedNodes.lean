import Mathlib.Data.List.Nodup
import SourceCanvas.Diagnostic
import SourceCanvas.Proofs.Grouping
import SourceCanvas.Proofs.OutlineForest

/-!
# Diagnostics of parsed nodes

The nodes of a text are searched in their order for the first one whose span contains a diagnostic.
Parents come first and contain their children, so that the search ends at the top level
(`isTopLevel_of_find?`), and spans at the top level lie apart, so that it cannot end elsewhere
(`find?_eq_some_iff`). Grouping the diagnostics by what is found keeps each of them once and in
order (`handedOut_byNode`).
-/

namespace SourceCanvas

/-- A diagnostic lies in the span of a node: not before its start, and before its end. -/
def Node.holds (node : Node) (diagnostic : Diagnostic) : Bool :=
  node.span.any fun span => span.start ≤ diagnostic.offset && diagnostic.offset < span.stop

theorem Node.holds_iff {node : Node} {diagnostic : Diagnostic} :
    node.holds diagnostic = true ↔
      ∃ span, node.span = some span ∧ span.start ≤ diagnostic.offset ∧
        diagnostic.offset < span.stop := by
  simp [Node.holds, Option.any_eq_true]

/-- What a node holds is held by each node around it. -/
theorem Node.Covers.holds {outer inner : Node} (covers : outer.Covers inner)
    {diagnostic : Diagnostic} (inside : inner.holds diagnostic = true) :
    outer.holds diagnostic = true := by
  obtain ⟨span, span', known, known', start, stop, -⟩ := covers
  obtain ⟨within, same, lower, upper⟩ := holds_iff.mp inside
  rw [known'] at same
  cases same
  exact holds_iff.mpr ⟨span, known, by omega, by omega⟩

/-- Nodes one behind the other hold nothing in common. -/
theorem Node.EndsBefore.not_holds {first second : Node} (apart : first.EndsBefore second)
    {diagnostic : Diagnostic} (inside : first.holds diagnostic = true) :
    ¬second.holds diagnostic = true := by
  intro inside'
  obtain ⟨span, span', known, known', apart⟩ := apart
  obtain ⟨within, same, -, upper⟩ := holds_iff.mp inside
  obtain ⟨within', same', lower, -⟩ := holds_iff.mp inside'
  rw [known] at same
  rw [known'] at same'
  cases same
  cases same'
  omega

/-- How diagnostics are handed out to the nodes of a forest. -/
structure HandedOut (nodes : List Node) (diagnostics : List Diagnostic)
    (found : Catalog (List Diagnostic)) : Prop where
  /-- what some node holds is held by exactly one node at the top level -/
  owned : ∀ diagnostic, (∃ node ∈ nodes, node.holds diagnostic = true) →
    ∃! node, node ∈ nodes ∧ node.isTopLevel = true ∧ node.holds diagnostic = true
  /-- the diagnostics that some node holds are listed, each of them once -/
  once : (found.flatMap Prod.snd).Perm
    (diagnostics.filter fun diagnostic => nodes.any (·.holds diagnostic))
  /-- exactly the diagnostics outside of all nodes at the top level are dropped -/
  dropped : ∀ diagnostic ∈ diagnostics, diagnostic ∉ found.flatMap Prod.snd ↔
    ∀ node ∈ nodes, node.isTopLevel = true → node.holds diagnostic = false
  /-- under an id stand those that the node at the top level with this id holds, in their order -/
  under : ∀ id, (found.get? id).getD [] = diagnostics.filter fun diagnostic =>
    nodes.any fun node => node.isTopLevel && node.id == id && node.holds diagnostic
  /-- no id is listed twice -/
  apart : found.names.Nodup
  /-- no id is listed without diagnostics -/
  filled : ∀ entry ∈ found, entry.2 ≠ []
  /-- where ids are different, a node below another one is not listed, and one at the top level has
  what it holds -/
  outermost : (nodes.map Node.id).Nodup → ∀ node ∈ nodes,
    (node.isTopLevel = false → found.get? node.id = none) ∧
    (node.isTopLevel = true → (found.get? node.id).getD [] = diagnostics.filter node.holds)

namespace PreorderForest

variable {length : Nat} {nodes : List Node} {node other : Node} {diagnostic : Diagnostic}

/-- No node of a text is empty, so that none contains its end. -/
theorem any_contains (forest : PreorderForest length nodes) (member : node ∈ nodes)
    (diagnostic : Diagnostic) :
    (node.span.any (·.contains diagnostic.offset)) = node.holds diagnostic := by
  obtain ⟨span, known, -, filled, -, -⟩ := forest.located node member
  rw [Node.holds, known, Option.any_some, Option.any_some, Span.contains, Bool.eq_iff_iff]
  simp only [Bool.or_eq_true, Bool.and_eq_true, decide_eq_true_eq, beq_iff_eq]
  omega

/-- The first node that holds a diagnostic has no parent, for its parent would come before it. -/
theorem isTopLevel_of_find? (forest : PreorderForest length nodes)
    (found : nodes.find? (·.holds diagnostic) = some node) : node.isTopLevel = true := by
  obtain ⟨inside, before, after, parts, earlier⟩ := List.find?_eq_some_iff_append.mp found
  rw [Node.isTopLevel, Option.isNone_iff_eq_none, Option.eq_none_iff_forall_ne_some]
  intro id above
  obtain ⟨outer, member, -, covers, -⟩ := forest.enclosed before node after id parts above
  have outside := earlier outer member
  rw [covers.holds inside] at outside
  cases outside

/-- Of two nodes one contains the other or ends before it. -/
theorem ordered_of_ne (forest : PreorderForest length nodes) (member : node ∈ nodes)
    (member' : other ∈ nodes) (different : other ≠ node) :
    (node.Covers other ∨ node.EndsBefore other) ∨ other.Covers node ∨ other.EndsBefore node := by
  obtain ⟨before, after, parts⟩ := List.append_of_mem member
  have laminar := forest.laminar
  rw [parts, List.pairwise_append, List.pairwise_cons] at laminar
  rw [parts] at member'
  rcases List.mem_append.mp member' with earlier | later
  · exact .inr (laminar.2.2 other earlier node (List.mem_cons_self ..))
  · exact .inl (laminar.2.1.1 other ((List.mem_cons.mp later).resolve_left different))

/-- Two nodes at the top level hold nothing in common. -/
theorem eq_of_holds (forest : PreorderForest length nodes) (member : node ∈ nodes)
    (member' : other ∈ nodes) (top : node.isTopLevel = true) (top' : other.isTopLevel = true)
    (inside : node.holds diagnostic = true) (inside' : other.holds diagnostic = true) :
    other = node := by
  have uncovered {node : Node} (member : node ∈ nodes) (top : node.isTopLevel = true) :
      ∀ other ∈ nodes, ¬other.Covers node :=
    (forest.topmost node member).mp (Option.isNone_iff_eq_none.mp top)
  by_contra different
  rcases forest.ordered_of_ne member member' different with (covers | apart) | (covers | apart)
  · exact uncovered member' top' node member covers
  · exact apart.not_holds inside inside'
  · exact uncovered member top other member' covers
  · exact apart.not_holds inside' inside

/-- The search ends at the node at the top level that holds the diagnostic. -/
theorem find?_eq_some_iff (forest : PreorderForest length nodes) :
    nodes.find? (·.holds diagnostic) = some node ↔
      node ∈ nodes ∧ node.isTopLevel = true ∧ node.holds diagnostic = true := by
  constructor
  · intro found
    have inside := List.find?_some found
    exact ⟨List.mem_of_find?_eq_some found, forest.isTopLevel_of_find? found, inside⟩
  · rintro ⟨member, top, inside⟩
    have some : (nodes.find? (·.holds diagnostic)).isSome = true :=
      List.find?_isSome.mpr ⟨node, member, inside⟩
    obtain ⟨first, found⟩ := Option.isSome_iff_exists.mp some
    have inside' := List.find?_some found
    have same : first = node := forest.eq_of_holds member (List.mem_of_find?_eq_some found) top
      (forest.isTopLevel_of_find? found) inside inside'
    rw [found, same]

/-- The diagnostics are grouped by the ids of the nodes that the search ends at. -/
theorem byNode_eq (forest : PreorderForest length nodes) (diagnostics : List Diagnostic) :
    Diagnostic.byNode diagnostics nodes = Catalog.grouped
      (fun diagnostic => (nodes.find? (·.holds diagnostic)).map Node.id) diagnostics := by
  refine congrArg (fun step => diagnostics.foldl step []) ?_
  funext found diagnostic
  have search : (nodes.find? fun node => node.span.any (·.contains diagnostic.offset)) =
      nodes.find? (·.holds diagnostic) := by
    rw [← List.head?_filter, ← List.head?_filter]
    exact congrArg List.head? (List.filter_congr fun node member => forest.any_contains member _)
  dsimp only
  rw [search]
  cases nodes.find? (·.holds diagnostic) <;> rfl

/-- The key of a diagnostic is the id of the node at the top level that holds it. -/
theorem find?_map_id_eq_some_iff (forest : PreorderForest length nodes) {id : String} :
    (nodes.find? (·.holds diagnostic)).map Node.id = some id ↔
      ∃ node ∈ nodes, node.isTopLevel = true ∧ node.id = id ∧ node.holds diagnostic = true := by
  rw [Option.map_eq_some_iff]
  constructor
  · rintro ⟨node, found, named⟩
    obtain ⟨member, top, inside⟩ := forest.find?_eq_some_iff.mp found
    exact ⟨node, member, top, named, inside⟩
  · rintro ⟨node, member, top, named, inside⟩
    exact ⟨node, forest.find?_eq_some_iff.mpr ⟨member, top, inside⟩, named⟩

/-- What some node holds is held by a node at the top level. -/
theorem exists_topLevel (forest : PreorderForest length nodes) (member : node ∈ nodes)
    (inside : node.holds diagnostic = true) :
    ∃ top ∈ nodes, top.isTopLevel = true ∧ top.holds diagnostic = true := by
  have some : (nodes.find? (·.holds diagnostic)).isSome = true :=
    List.find?_isSome.mpr ⟨node, member, inside⟩
  obtain ⟨top, found⟩ := Option.isSome_iff_exists.mp some
  exact ⟨top, forest.find?_eq_some_iff.mp found⟩

/-- The diagnostics that some node holds are listed, each of them once. -/
theorem perm_byNode (forest : PreorderForest length nodes) (diagnostics : List Diagnostic) :
    ((Diagnostic.byNode diagnostics nodes).flatMap Prod.snd).Perm
      (diagnostics.filter fun diagnostic => nodes.any (·.holds diagnostic)) := by
  rw [forest.byNode_eq]
  refine (Catalog.perm_grouped _ diagnostics).trans (.of_eq (List.filter_congr ?_))
  intro diagnostic _
  rw [Option.isSome_map, Bool.eq_iff_iff, List.find?_isSome, List.any_eq_true]

/-- Under an id stand the diagnostics that a node at the top level with this id holds. -/
theorem get?_byNode (forest : PreorderForest length nodes) (diagnostics : List Diagnostic)
    (id : String) :
    ((Diagnostic.byNode diagnostics nodes).get? id).getD [] = diagnostics.filter fun diagnostic =>
      nodes.any fun node => node.isTopLevel && node.id == id && node.holds diagnostic := by
  rw [forest.byNode_eq, Catalog.get?_grouped]
  refine List.filter_congr ?_
  intro diagnostic _
  rw [Bool.eq_iff_iff, beq_iff_eq, forest.find?_map_id_eq_some_iff]
  simp [and_assoc]

/-- A diagnostic is dropped where no node at the top level holds it. -/
theorem not_mem_byNode_iff (forest : PreorderForest length nodes) {diagnostics : List Diagnostic}
    (given : diagnostic ∈ diagnostics) :
    diagnostic ∉ (Diagnostic.byNode diagnostics nodes).flatMap Prod.snd ↔
      ∀ node ∈ nodes, node.isTopLevel = true → node.holds diagnostic = false := by
  rw [(forest.perm_byNode diagnostics).mem_iff, List.mem_filter, and_iff_right given,
    Bool.not_eq_true, List.any_eq_false]
  constructor
  · intro outside node member _
    exact Bool.eq_false_iff.mpr (outside node member)
  · intro outside node member inside
    obtain ⟨top, among, outermost, held⟩ := forest.exists_topLevel member inside
    rw [outside top among outermost] at held
    cases held

/-- Where ids are different, those of nodes below others are not listed. -/
theorem get?_byNode_of_nested (forest : PreorderForest length nodes)
    (different : (nodes.map Node.id).Nodup) (member : node ∈ nodes)
    (nested : node.isTopLevel = false) (diagnostics : List Diagnostic) :
    (Diagnostic.byNode diagnostics nodes).get? node.id = none := by
  rw [forest.byNode_eq]
  refine Catalog.get?_grouped_eq_none ?_
  intro diagnostic _ listed
  obtain ⟨other, among, top, named, -⟩ := forest.find?_map_id_eq_some_iff.mp listed
  rw [List.inj_on_of_nodup_map different among member named, nested] at top
  cases top

/-- Where ids are different, a node at the top level has the diagnostics that it holds. -/
theorem get?_byNode_of_top (forest : PreorderForest length nodes)
    (different : (nodes.map Node.id).Nodup) (member : node ∈ nodes)
    (top : node.isTopLevel = true) (diagnostics : List Diagnostic) :
    ((Diagnostic.byNode diagnostics nodes).get? node.id).getD [] =
      diagnostics.filter node.holds := by
  rw [forest.get?_byNode]
  refine List.filter_congr ?_
  intro diagnostic _
  rw [Bool.eq_iff_iff, List.any_eq_true]
  constructor
  · rintro ⟨other, among, found⟩
    simp only [Bool.and_eq_true, beq_iff_eq] at found
    rw [← List.inj_on_of_nodup_map different among member found.1.2]
    exact found.2
  · intro inside
    exact ⟨node, member, by simp [top, inside]⟩

theorem handedOut (forest : PreorderForest length nodes) (diagnostics : List Diagnostic) :
    HandedOut nodes diagnostics (Diagnostic.byNode diagnostics nodes) where
  owned := by
    rintro diagnostic ⟨node, member, inside⟩
    obtain ⟨top, among, outermost, held⟩ := forest.exists_topLevel member inside
    refine ⟨top, ⟨among, outermost, held⟩, ?_⟩
    rintro other ⟨among', outermost', held'⟩
    exact forest.eq_of_holds among among' outermost outermost' held held'
  once := forest.perm_byNode diagnostics
  dropped := fun _ => forest.not_mem_byNode_iff
  under := forest.get?_byNode diagnostics
  apart := by
    rw [forest.byNode_eq]
    exact Catalog.nodup_names_grouped _ diagnostics
  filled := by
    rw [forest.byNode_eq]
    exact Catalog.filled_grouped _ diagnostics
  outermost := by
    intro different node member
    exact ⟨fun nested => forest.get?_byNode_of_nested different member nested diagnostics,
      fun top => forest.get?_byNode_of_top different member top diagnostics⟩

end PreorderForest

/-- **Diagnostics are handed out to the outermost nodes.** A text with tokens has nodes, and
whatever the diagnostics are, each one in the span of some node is listed once, under the only node
at the top level whose span it is in. -/
theorem handedOut_byNode (reclassify : Bool) {text : String}
    (tokenizes : (tokenize text).isOk = true) :
    ∃ nodes, parse reclassify text = .ok nodes ∧
      ∀ diagnostics, HandedOut nodes diagnostics (Diagnostic.byNode diagnostics nodes) := by
  obtain ⟨nodes, parsed, forest⟩ := preorderForest_of_parse reclassify tokenizes
  exact ⟨nodes, parsed, forest.handedOut⟩

theorem handedOut_byNode_call :
    ∃ nodes, parse true "const a = f(1);" = .ok nodes ∧
      ∀ diagnostics, HandedOut nodes diagnostics (Diagnostic.byNode diagnostics nodes) :=
  handedOut_byNode true (by decide +kernel)

end SourceCanvas
