import SourceCanvas.Layout.Rank
import SourceCanvas.Settings

/-!
# Layout in layers

Every rank of roots makes a layer, and the layers follow each other from top to bottom or from left
to right. A node is as large as it has to be for its children, which are stacked inside it below a
header. Positions of children are relative to their parent. The measures can be numbers of any kind,
so that what holds of exact numbers can be stated.
-/

namespace SourceCanvas

/-- The measures of a layout. -/
structure Measures (α : Type) where
  direction : Direction
  nodeWidth : α
  nodeHeight : α
  rankSpacing : α
  nodeSpacing : α
  childPadding : α

/-- The measures that the settings name. -/
def Settings.measures (settings : Settings) : Measures Number :=
  { direction := settings.direction
    nodeWidth := settings.nodeWidth
    nodeHeight := settings.nodeHeight
    rankSpacing := settings.rankSpacing
    nodeSpacing := settings.nodeSpacing
    childPadding := settings.childPadding }

/-- The size of the box around a node. -/
structure Box (α : Type) where
  width : α
  height : α

namespace Measures

variable {α : Type} [Add α] [Mul α] [OfNat α 0] [OfNat α 2] [LT α] [DecidableLT α]

/-- The larger one of two numbers, and the first one where they cannot be compared. -/
def larger (a b : α) : α := if a < b then b else a

/-! ## Sizes -/

mutual

/-- The box around a node and those below it. -/
def size (measures : Measures α) : Tree → Box α
  | .node _ children =>
    let box := stack measures ⟨measures.nodeWidth, measures.nodeHeight⟩ children
    match children with
    | [] => box
    | _ :: _ => { box with height := box.height + measures.childPadding }

/-- A box grown by what is stacked inside it. -/
def stack (measures : Measures α) (box : Box α) : List Tree → Box α
  | [] => box
  | child :: rest =>
    let inner := size measures child
    let width := larger box.width (inner.width + 2 * measures.childPadding)
    let height := box.height + (inner.height + measures.childPadding)
    stack measures ⟨width, height⟩ rest

end

/-! ## Children -/

mutual

/-- The positions of the nodes below the one on top of a tree. -/
def placeBelow (measures : Measures α) : Tree → List (String × α × α)
  | .node _ children =>
    placeStack measures (measures.nodeHeight + measures.childPadding) children

/-- The positions of trees stacked from a height on, and of the nodes below them. -/
def placeStack (measures : Measures α) (height : α) : List Tree → List (String × α × α)
  | [] => []
  | child :: rest =>
    (child.id, measures.childPadding, height) :: placeBelow measures child ++
      placeStack measures (height + ((size measures child).height + measures.childPadding)) rest

end

/-! ## Roots -/

/-- The extent of a box along its layer. -/
def along (measures : Measures α) (box : Box α) : α :=
  match measures.direction with
  | .topToBottom => box.width
  | .leftToRight => box.height

/-- The extent of a box across its layer. -/
def across (measures : Measures α) (box : Box α) : α :=
  match measures.direction with
  | .topToBottom => box.height
  | .leftToRight => box.width

/-- A place by how far it lies along its layer and across all layers. -/
def place (measures : Measures α) (along across : α) : α × α :=
  match measures.direction with
  | .topToBottom => (along, across)
  | .leftToRight => (across, along)

/-- The positions of the trees of one layer, from a place on. -/
def placeLayer (measures : Measures α) (across : α) : α → List Tree → List (String × α × α)
  | _, [] => []
  | start, tree :: rest =>
    (tree.id, measures.place start across) ::
      placeLayer measures across
        (start + (measures.along (measures.size tree) + measures.nodeSpacing)) rest

/-- The extent of a layer: that of its largest box. -/
def layerDepth (measures : Measures α) (layer : List Tree) : α :=
  layer.foldl (fun depth tree => larger depth (measures.across (measures.size tree))) 0

/-- The positions of the trees of layers, from a place on. -/
def placeLayers (measures : Measures α) : α → List (List Tree) → List (String × α × α)
  | _, [] => []
  | start, layer :: rest =>
    placeLayer measures start 0 layer ++
      placeLayers measures (start + (measures.layerDepth layer + measures.rankSpacing)) rest

/-- The trees of a graph by rank. -/
def layers (graph : Graph) : List (List Tree) :=
  graph.ranks.map fun rank => rank.map (graph.treeBelow graph.nodes.length)

/-- The position of every node of a graph. Nodes that belong to no tree lie at the origin. -/
def layout (measures : Measures α) (graph : Graph) : Catalog (α × α) :=
  let placed := measures.placeLayers 0 (layers graph) ++
    graph.forest.flatMap measures.placeBelow
  graph.ids.map fun id => (id, (Catalog.get? placed id).getD (0, 0))

end Measures

end SourceCanvas
