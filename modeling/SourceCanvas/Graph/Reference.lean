import SourceCanvas.Graph.Basic
import SourceCanvas.Text.Numeral

/-!
# References

A script names nodes and edges by their ids or by their place in the graph: `#0` is the first node
and `@0` the first edge. A text that names no place is an id.
-/

namespace SourceCanvas.Graph

/-- The place that the digits of a reference stand for. -/
def place? (digits : List Char) : Option Nat :=
  if digits.isEmpty || !digits.all Char.isDigit then none else some (Text.digitsValue digits)

/-- The id that a text refers to. -/
def resolve (graph : Graph) (text : String) : String :=
  let found : Option String :=
    match text.toList with
    | '#' :: digits => (place? digits).bind fun place => (graph.nodes[place]?).map (·.id)
    | '@' :: digits => (place? digits).bind fun place => (graph.edges[place]?).map (·.id)
    | _ => none
  found.getD text

end SourceCanvas.Graph
