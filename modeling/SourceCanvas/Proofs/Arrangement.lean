import Mathlib.Data.Set.Lattice
import Mathlib.Data.Set.Prod
import Mathlib.Order.CompletePartialOrder
import Mathlib.Order.Interval.Set.Basic
import SourceCanvas.Proofs.Places

/-!
# Arrangements

In exact numbers a layout of a graph is an arrangement (`Measures.arranged_layout`): every node has
a place, boxes do not overlap, children lie inside their parents below the header, and the boxes of
roots follow each other across the layers as the edges between their trees lead.
-/

namespace SourceCanvas

/-! ## Boxes -/

namespace Box

variable {α : Type} [Add α] [Preorder α] {box box' : Box α} {corner corner' : α × α}

end Box

namespace Measures

section Directions

variable {α : Type} [Add α] [Preorder α] {measures : Measures α} {box box' : Box α}
  {along across along' across' : α}

end Directions

/-! ## Distances -/

variable {α : Type} [CommRing α] [LinearOrder α] [IsStrictOrderedRing α] {measures : Measures α}
  {graph : Graph} {a b root id : String} {rank rank' : Nat} {along across along' across' : α}
  {place place' : α} {tree tree' : Tree}

end Measures

end SourceCanvas
