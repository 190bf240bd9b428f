import SourceCanvas.Program.Block

/-!
# Program texts

The text of a list of nodes is made of the blocks of those at the top level, in order, with an empty
line between neighbours. The nodes below others are written by the block of the node they lie below.
The span of every block is kept under the id of its node.
-/

namespace SourceCanvas

/-- A program text with the spans of its blocks by the ids of their nodes. -/
structure Program where
  text : String
  ranges : Catalog Span
  deriving DecidableEq, Repr

namespace Program

/-- What stands between two blocks. -/
def separator : String := "\n\n"

/-- The blocks of the nodes at the top level, with their ids. -/
def blocks (step : Nat) (nodes : List Node) : Except Fault (List (String × String)) :=
  (nodes.filter Node.isTopLevel).mapM fun node => do
    return (node.id, ← node.block step (childrenOf nodes node.id))

/-- The spans of blocks, the first of which starts at an offset. -/
def spansFrom (offset : Nat) : List (String × String) → List (String × Span)
  | [] => []
  | (id, block) :: others =>
    (id, ⟨offset, offset + block.length⟩) ::
      spansFrom (offset + block.length + separator.length) others

/-- The text of blocks, with their spans. -/
def ofBlocks (blocks : List (String × String)) : Program :=
  { text := separator.intercalate (blocks.map (·.2))
    ranges := Catalog.ofList (spansFrom 0 blocks) }

end Program

/-- The program text of a list of nodes, indented by a step. -/
def render (step : Nat) (nodes : List Node) : Except Fault Program := do
  return Program.ofBlocks (← Program.blocks step nodes)

end SourceCanvas
