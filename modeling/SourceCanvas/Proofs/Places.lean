import SourceCanvas.Proofs.BoxSizes
import SourceCanvas.Proofs.Forests

/-!
# Places

A layout gives each root the place where it stands in the layer of its rank
(`Measures.get?_layout_of_stands`), and each node below a root the place where it stands inside its
parent (`Measures.get?_layout_of_inside`). Nodes that descend from no root lie at the origin
(`Measures.get?_layout_of_stray`).
-/

namespace SourceCanvas

namespace Measures

/-! ## Entries of a layout -/

section Entries

variable {α : Type} [Add α] [Mul α] [OfNat α 2] [LT α] [DecidableLT α]
  {measures : Measures α} {graph : Graph} {entry : String × α × α} {id root : String}
  {depth : Nat} {node parent child : CanvasNode} {place : α}

/-- How trees stand below each other inside a node. -/
def column (measures : Measures α) (start : α) (trees : List Tree) : List (Tree × α) :=
  Queue.line (fun tree => (measures.size tree).height) measures.childPadding start trees

/-- How trees stand next to each other in a layer. -/
def row (measures : Measures α) (start : α) (trees : List Tree) : List (Tree × α) :=
  Queue.line (fun tree => measures.along (measures.size tree)) measures.nodeSpacing start trees

/-- How the trees of the children stand inside a node. -/
def inside (measures : Measures α) (graph : Graph) (id : String) : List (Tree × α) :=
  measures.column (measures.nodeHeight + measures.childPadding)
    ((graph.children id).map fun child => graph.treeOf child.id)

variable [OfNat α 0] {rank : Nat} {along across : α}

/-- How layers follow each other. -/
def levels (measures : Measures α) (start : α) (layers : List (List Tree)) :
    List (List Tree × α) :=
  Queue.line measures.layerDepth measures.rankSpacing start layers

/-- A root stands somewhere along the layer of its rank. -/
def Stands (measures : Measures α) (graph : Graph) (rank : Nat) (root : String)
    (along across : α) : Prop :=
  ∃ layer, (measures.levels 0 (layers graph))[rank]? = some (layer, across) ∧
    (graph.treeOf root, along) ∈ measures.row 0 layer

end Entries

end Measures

end SourceCanvas
