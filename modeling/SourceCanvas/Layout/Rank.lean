import SourceCanvas.Graph.Convert
import SourceCanvas.Layout.Tree

/-!
# Ranks

The roots of a graph are put into ranks along the edges drawn by hand between their trees: a root
comes later than every other root from which a chain of edges leads to it, unless a chain leads back
as well. Within a rank the roots keep the order of the graph.
-/

namespace SourceCanvas

/-! ## Chains of arrows -/

namespace Arrows

/-- The elements that an arrow leads to from an element of a list. -/
def targets (arrows : List (String × String)) (sources : List String) : List String :=
  (arrows.filter fun arrow => sources.contains arrow.1).map (·.2)

/-- The elements of a list and those that chains of arrows lead to. Fuel bounds their length. -/
def closure (arrows : List (String × String)) : Nat → List String → List String
  | 0, found => found
  | fuel + 1, found =>
    match ((targets arrows found).filter fun target => !found.contains target).eraseDups with
    | [] => found
    | fresh => closure arrows fuel (found ++ fresh)

/-- Whether a chain of arrows leads from one element to another. -/
def leads (arrows : List (String × String)) (source target : String) : Bool :=
  (closure arrows arrows.length [source]).contains target

/-- Whether a chain leads from one element to another and none leads back. -/
def precedes (arrows : List (String × String)) (source target : String) : Bool :=
  leads arrows source target && !leads arrows target source

/-- Splits elements into ranks: first those that no other one precedes, then those that only
elements of earlier ranks precede, and so on. Fuel bounds the count of ranks. -/
def ranks (arrows : List (String × String)) : Nat → List String → List (List String)
  | 0, _ | _, [] => []
  | fuel + 1, elements =>
    let isFirst (element : String) : Bool := !elements.any fun other =>
      precedes arrows other element
    elements.filter isFirst :: ranks arrows fuel (elements.filter fun element => !isFirst element)

end Arrows

namespace Graph

/-- The pairs of different roots whose trees are joined by an edge drawn by hand. -/
def rootArrows (graph : Graph) : List (String × String) :=
  graph.userEdges.filterMap fun edge =>
    match graph.rootOf? edge.source, graph.rootOf? edge.target with
    | some source, some target => if source = target then none else some (source, target)
    | _, _ => none

/-- The ids of the roots, by rank. -/
def ranks (graph : Graph) : List (List String) :=
  Arrows.ranks graph.rootArrows.eraseDups graph.roots.length (graph.roots.map (·.id))

end Graph

end SourceCanvas
