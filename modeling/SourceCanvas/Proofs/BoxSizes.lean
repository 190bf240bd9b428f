import Mathlib.Algebra.Order.Ring.Defs
import Mathlib.Data.List.Pairwise
import Mathlib.Tactic.Abel
import Mathlib.Tactic.Linarith
import SourceCanvas.Layout.Layered

/-!
# Queues and the sizes of boxes

Children stand below each other, roots of a layer next to each other, and layers one after the
other: each time items stand in a queue (`Queue.line`), where every item begins behind the one
before it and a gap. In exact numbers the box of a node has room for the boxes of its children
(`Measures.size_node`).
-/

namespace SourceCanvas

/-! ## Queues -/

namespace Queue

section Lines

variable {α β γ : Type} [Add α] (extent : β → α) (gap : α)

/-- Items with where they begin, one behind the other from a start on. -/
def line : α → List β → List (β × α)
  | _, [] => []
  | start, item :: rest => (item, start) :: line (start + (extent item + gap)) rest

/-- Where a further item would begin. -/
def finish : α → List β → α
  | start, [] => start
  | start, item :: rest => finish (start + (extent item + gap)) rest

variable (start : α) {items : List β} {item : β}

end Lines

variable {α β : Type} [CommRing α] [LinearOrder α] [IsStrictOrderedRing α] {extent : β → α}
  {gap start : α} {items : List β}

end Queue

/-! ## Sizes -/

namespace Measures

variable {α : Type} [CommRing α] [LinearOrder α] [IsStrictOrderedRing α]

/-- No measure is negative. -/
structure Nonnegative (measures : Measures α) : Prop where
  nodeWidth : 0 ≤ measures.nodeWidth
  nodeHeight : 0 ≤ measures.nodeHeight
  rankSpacing : 0 ≤ measures.rankSpacing
  nodeSpacing : 0 ≤ measures.nodeSpacing
  childPadding : 0 ≤ measures.childPadding

/-- The box of a node that has no children. -/
def bare (measures : Measures α) : Box α := ⟨measures.nodeWidth, measures.nodeHeight⟩

variable {measures : Measures α}

omit [IsStrictOrderedRing α] in
theorem height_size (id : String) (trees : List Tree) : (measures.size (.node id trees)).height =
    (measures.stack measures.bare trees).height +
      if trees = [] then 0 else measures.childPadding := by
  cases trees with
  | nil => simp [size, bare]
  | cons => simp [size, bare]

mutual

theorem height_nonneg (nonnegative : measures.Nonnegative) :
    (tree : Tree) → 0 ≤ (measures.size tree).height
  | .node id trees => by
    have own : 0 ≤ measures.bare.height := nonnegative.nodeHeight
    have stacked := le_height_stack nonnegative measures.bare trees
    rw [height_size]
    split
    · exact add_nonneg (le_trans own stacked) le_rfl
    · exact add_nonneg (le_trans own stacked) nonnegative.childPadding

theorem le_height_stack (nonnegative : measures.Nonnegative) (box : Box α) :
    (trees : List Tree) → box.height ≤ (measures.stack box trees).height
  | [] => le_rfl
  | tree :: rest => by
    have inner := height_nonneg nonnegative tree
    have padding := nonnegative.childPadding
    rw [stack]
    exact le_trans (by simp only; linarith) (le_height_stack nonnegative _ rest)

end

end Measures

end SourceCanvas
