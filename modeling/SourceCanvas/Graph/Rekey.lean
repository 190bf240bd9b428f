import SourceCanvas.Graph.Convert
import SourceCanvas.Program.Render

/-!
# Following the ids of a text

The ids of parsed nodes follow from where constructs lie in a text, so writing the text of a graph
gives its nodes new ids once the text is read again. `Graph.matching` finds for the nodes of a graph
the parsed nodes that stand for the same constructs, and `Graph.rekey` moves the nodes to the ids of
these. A node is found through its block at the top level, and below that by kind and order. A node
that is found more than once goes with the last construct.

* `pairUp_sublist`: pairing keeps the order of the first list
* `fits_of_mem_pairUp`: what is paired fits
* `nodup_ids_latest`: each node is matched once in the end
-/

namespace SourceCanvas

/-! ## Pairing -/

section Pairing

variable {α β : Type}

/-- Pairs each element of a list with the first one of another list that fits and is still there. -/
def pairUp (fits : α → β → Bool) : List α → List β → List (α × β)
  | [], _ => []
  | a :: rest, available =>
    match available.find? (fits a) with
    | some b => (a, b) :: pairUp fits rest (available.eraseP (fits a))
    | none => pairUp fits rest available

theorem pairUp_sublist (fits : α → β → Bool) (as : List α) (available : List β) :
    List.Sublist ((pairUp fits as available).map Prod.fst) as := by
  induction as generalizing available with
  | nil => simp [pairUp]
  | cons a rest ih =>
    rw [pairUp]
    split
    · exact (ih _).cons_cons a
    · exact (ih _).cons a

theorem fits_of_mem_pairUp {fits : α → β → Bool} {as : List α} {available : List β} {pair : α × β}
    (paired : pair ∈ pairUp fits as available) : fits pair.1 pair.2 = true := by
  induction as generalizing available with
  | nil => simp [pairUp] at paired
  | cons a rest ih =>
    rw [pairUp] at paired
    split at paired
    · next b found =>
      rcases List.mem_cons.mp paired with rfl | later
      · exact List.find?_some found
      · exact ih later
    · exact ih paired

end Pairing

namespace Graph

/-! ## Matching -/

/-- Whether a parsed construct is of the kind of a node and starts in its block. -/
def startsIn (ranges : Catalog Span) (node : CanvasNode) (construct : Node) : Bool :=
  construct.kindName == node.kindName &&
    match ranges.get? node.id, construct.span with
    | some range, some span => range.start ≤ span.start && span.start < range.stop
    | _, _ => false

/-- A matched pair, and below it the pairs of children, by kind and in order. Fuel bounds the
depth. -/
def matchBelow (graph : Graph) (parsed : List Node) :
    Nat → CanvasNode × Node → List (CanvasNode × Node)
  | 0, pair => [pair]
  | fuel + 1, (node, construct) =>
    (node, construct) ::
      (pairUp (fun child candidate => candidate.kindName == child.kindName)
        (graph.children node.id) (childrenOf parsed construct.id)).flatMap
        (matchBelow graph parsed fuel)

/-- All pairs of a node and a construct that are found, given the spans of the blocks. -/
def encounters (graph : Graph) (parsed : List Node) (ranges : Catalog Span) :
    List (CanvasNode × Node) :=
  (pairUp (startsIn ranges) graph.nodes (parsed.filter Node.isTopLevel)).flatMap
    (matchBelow graph parsed parsed.length)

/-- Writes a pair into a list: in the place of the one of its node, or last. -/
def insertPair (pair : CanvasNode × Node) : List (CanvasNode × Node) → List (CanvasNode × Node)
  | [] => [pair]
  | other :: rest =>
    if other.1.id = pair.1.id then pair :: rest else other :: insertPair pair rest

/-- The last pair of each node, in the order in which the nodes come first. -/
def latest (pairs : List (CanvasNode × Node)) : List (CanvasNode × Node) :=
  pairs.foldl (fun found pair => insertPair pair found) []

/-- The nodes of a graph with the constructs they stand for, given the spans of the blocks. -/
def matching (graph : Graph) (parsed : List Node) (ranges : Catalog Span) :
    List (CanvasNode × Node) :=
  latest (graph.encounters parsed ranges)

theorem ids_insertPair (pair : CanvasNode × Node) (pairs : List (CanvasNode × Node)) :
    (insertPair pair pairs).map (·.1.id) =
      if pair.1.id ∈ pairs.map (·.1.id) then pairs.map (·.1.id)
      else pairs.map (·.1.id) ++ [pair.1.id] := by
  induction pairs with
  | nil => simp [insertPair]
  | cons other rest ih =>
    rw [insertPair]
    by_cases same : other.1.id = pair.1.id
    · simp [same]
    · by_cases known : pair.1.id ∈ rest.map (·.1.id)
      · simp [same, ih, known]
      · simp [same, ih, known, Ne.symm same]

/-- No node is matched with two constructs in the end. -/
theorem nodup_ids_latest (pairs : List (CanvasNode × Node)) :
    ((latest pairs).map (·.1.id)).Nodup := by
  have step (found : List (CanvasNode × Node)) (apart : (found.map (·.1.id)).Nodup) :
      ((pairs.foldl (fun found pair => insertPair pair found) found).map (·.1.id)).Nodup := by
    induction pairs generalizing found with
    | nil => exact apart
    | cons pair rest ih =>
      refine ih _ ?_
      rw [ids_insertPair]
      split
      · exact apart
      · next fresh =>
        refine List.nodup_append.mpr ⟨apart, by simp, fun a ha b hb same => fresh ?_⟩
        rw [← List.mem_singleton.mp hb, ← same]
        exact ha
  exact step [] List.nodup_nil

theorem mem_of_mem_latest {pairs : List (CanvasNode × Node)} {pair : CanvasNode × Node}
    (member : pair ∈ latest pairs) : pair ∈ pairs := by
  have one (new : CanvasNode × Node) (found : List (CanvasNode × Node))
      (member : pair ∈ insertPair new found) : pair = new ∨ pair ∈ found := by
    induction found with
    | nil => exact .inl (List.mem_singleton.mp member)
    | cons other rest ih =>
      rw [insertPair] at member
      split at member
      · rcases List.mem_cons.mp member with rfl | behind
        · exact .inl rfl
        · exact .inr (List.mem_cons_of_mem _ behind)
      · rcases List.mem_cons.mp member with rfl | behind
        · exact .inr (List.mem_cons_self ..)
        · exact (ih behind).imp_right (List.mem_cons_of_mem _)
  have step (later found : List (CanvasNode × Node))
      (member : pair ∈ later.foldl (fun found pair => insertPair pair found) found) :
      pair ∈ found ∨ pair ∈ later := by
    induction later generalizing found with
    | nil => exact .inl member
    | cons new rest ih =>
      rcases ih _ member with before | later
      · rcases one new found before with rfl | before
        · exact .inr (List.mem_cons_self ..)
        · exact .inl before
      · exact .inr (List.mem_cons_of_mem _ later)
  exact (step pairs [] member).resolve_left List.not_mem_nil

/-! ## New ids -/

/-- The new ids by the old ones: of the nodes that are matched with another id, unless a node that
keeps its id has it. -/
def newIds (graph : Graph) (pairs : List (CanvasNode × Node)) : Catalog String :=
  let moves := (pairs.filter fun (node, construct) => node.id != construct.id).map
    fun (node, construct) => (node.id, construct.id)
  let kept := graph.ids.filter fun id => !Catalog.has moves id
  moves.filter fun (_, id) => !kept.contains id

/-- A node under the name that its construct has in the text, if it declares none itself. -/
def pinName (node : CanvasNode) (construct : Node) : CanvasNode :=
  match node.content, construct.content.declaredName? with
  | .typed attributes, some name =>
    if (attributes.name?.bind Text.nonempty?).isSome then
      node
    else
      { node with content := .typed (attributes.withName name) }
  | _, _ => node

/-- The id that takes the place of an id. -/
def newId (renamed : Catalog String) (id : String) : String := (renamed.get? id).getD id

/-- A node with its own id and that of its parent renamed. -/
def renameNode (renamed : Catalog String) (pairs : List (CanvasNode × Node)) (node : CanvasNode) :
    CanvasNode :=
  let moved := match renamed.get? node.id, pairs.find? (·.1.id == node.id) with
    | some id, some (_, construct) =>
      { pinName node construct with id, span := node.span.or construct.span }
    | _, _ => node
  { moved with parent := node.parent.map (newId renamed) }

/-- An edge with its ends renamed. -/
def renameEdge (renamed : Catalog String) (edge : Edge) : Edge :=
  { edge with source := newId renamed edge.source, target := newId renamed edge.target }

/-- The graph with nodes and edges renamed; containment edges are drawn again. -/
def renameAll (graph : Graph) (renamed : Catalog String) (pairs : List (CanvasNode × Node)) :
    Graph :=
  let nodes := collect (graph.nodes.map (renameNode renamed pairs))
  { nodes, edges := graph.userEdges.map (renameEdge renamed) ++ containmentEdges { nodes } }

/-- The graph with its nodes under the ids of the constructs they stand for, and the new ids by the
old ones. -/
def rekey (graph : Graph) (parsed : List Node) (ranges : Catalog Span) : Graph × Catalog String :=
  let pairs := graph.matching parsed ranges
  let renamed := graph.newIds pairs
  if renamed.isEmpty then (graph, []) else (graph.renameAll renamed pairs, renamed)

end Graph

end SourceCanvas
