/-!
# Fresh ids

Ids are drawn from three series, one for nodes, one for edges and one for records of a store. Each
series counts from one, so that a run can be repeated, and no series draws an id of another one.
-/

namespace SourceCanvas

/-- How many ids have been drawn from each series. -/
structure Supply where
  nodes : Nat := 0
  edges : Nat := 0
  records : Nat := 0
  deriving DecidableEq, Repr

namespace Supply

/-- Twelve hexadecimal digits, or more where they are needed. -/
def digits (count : Nat) : String :=
  let digits := Nat.toDigits 16 count
  String.ofList (List.replicate (12 - digits.length) '0' ++ digits)

/-- The id at a place of a series. -/
def idOf (series : String) (count : Nat) : String :=
  "00000000-0000-4000-" ++ series ++ "-" ++ digits count

/-- Draws an id for a node. -/
def drawNode (supply : Supply) : String × Supply :=
  (idOf "8000" (supply.nodes + 1), { supply with nodes := supply.nodes + 1 })

/-- Draws an id for an edge. -/
def drawEdge (supply : Supply) : String × Supply :=
  (idOf "9000" (supply.edges + 1), { supply with edges := supply.edges + 1 })

/-- Draws an id for a record. -/
def drawRecord (supply : Supply) : String × Supply :=
  (idOf "a000" (supply.records + 1), { supply with records := supply.records + 1 })

end Supply

end SourceCanvas
