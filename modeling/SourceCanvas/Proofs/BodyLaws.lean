import Mathlib.Data.Finset.Card
import Mathlib.Logic.Relation
import SourceCanvas.Proofs.Rewriting

/-!
# Captured bodies

A function keeps the text of its body as it was captured, and writing the function writes that text,
whatever lies below the function. So a change below a function has to drop the captured body. The
nodes around a node are found by climbing from parent to parent, and as many steps as there are nodes
are enough, also where parents go in a circle (`Graph.mem_enclosing_iff`).

`Session.invalidated_iff` says for each of the changes that the text shows when that is done: not by
nodes that come and go, nor by a node that leaves a function, and never for an empty body.
-/

namespace SourceCanvas

open Text (given?)

namespace Graph

variable {graph graph' : Graph} {node : CanvasNode} {id inner outer : String}

/-! ## Climbing -/

/-- A node lies directly below another one. -/
def Under (graph : Graph) (child parent : String) : Prop :=
  ∃ node, graph.node? child = some node ∧ (graph.parentOf? node).map (·.id) = some parent

/-- A node lies below another one, at whatever depth. -/
def Inside (graph : Graph) : String → String → Prop := Relation.TransGen graph.Under

/-- The node some steps above a node. -/
def climb (graph : Graph) : Nat → Option CanvasNode → Option CanvasNode
  | 0, start => start
  | steps + 1, start => climb graph steps (start.bind graph.parentOf?)

theorem climb_none (graph : Graph) (steps : Nat) : graph.climb steps none = none := by
  induction steps with
  | zero => rfl
  | succ steps ih => exact ih

theorem climb_add (graph : Graph) (first second : Nat) (start : Option CanvasNode) :
    graph.climb (first + second) start = graph.climb second (graph.climb first start) := by
  induction first generalizing start with
  | zero => rw [Nat.zero_add, climb]
  | succ first ih =>
    rw [Nat.succ_add]
    exact ih _

theorem mem_enclosing {fuel : Nat} {start : Option CanvasNode} :
    id ∈ graph.enclosing fuel start ↔
      ∃ steps < fuel, ∃ node, graph.climb steps start = some node ∧ node.id = id := by
  induction fuel generalizing start with
  | zero => simp [enclosing]
  | succ fuel ih =>
    cases start with
    | none => simp [enclosing, climb_none]
    | some node =>
      rw [enclosing, List.mem_cons, ih]
      constructor
      · rintro (rfl | ⟨steps, enough, above, found, same⟩)
        · exact ⟨0, by omega, node, rfl, rfl⟩
        · exact ⟨steps + 1, by omega, above, found, same⟩
      · rintro ⟨steps, enough, above, found, same⟩
        cases steps with
        | zero =>
          cases found
          exact .inl same.symm
        | succ steps => exact .inr ⟨steps, by omega, above, found, same⟩

theorem mem_of_climb {steps : Nat} {start : Option CanvasNode}
    (member : ∀ node ∈ start, node ∈ graph.nodes) (found : graph.climb steps start = some node) :
    node ∈ graph.nodes := by
  induction steps generalizing start with
  | zero => exact member node found
  | succ steps ih =>
    refine ih (fun parent above => ?_) found
    obtain ⟨child, -, above⟩ := Option.bind_eq_some_iff.mp above
    obtain ⟨_, -, found⟩ := Option.bind_eq_some_iff.mp above
    exact List.mem_of_find?_eq_some found

/-- What is reached by climbing is reached in fewer steps than there are nodes. -/
theorem climb_short {start : Option CanvasNode} (member : ∀ node ∈ start, node ∈ graph.nodes)
    {steps : Nat} (found : graph.climb steps start = some node) :
    ∃ few < graph.nodes.length, graph.climb few start = some node := by
  induction steps using Nat.strong_induction_on with
  | _ steps ih =>
    by_cases short : steps < graph.nodes.length
    · exact ⟨steps, short, found⟩
    -- more steps than nodes: two of them reach the same node, and what lies between is left out
    have reached (fewer : Nat) (within : fewer ≤ steps) :
        ∃ above, graph.climb fewer start = some above := by
      obtain ⟨more, rfl⟩ := Nat.exists_eq_add_of_le within
      rw [climb_add] at found
      cases climbed : graph.climb fewer start with
      | none =>
        rw [climbed, climb_none] at found
        cases found
      | some above => exact ⟨above, rfl⟩
    have inside : ∀ fewer ∈ Finset.range (steps + 1), (graph.climb fewer start).getD node ∈
        graph.nodes.toFinset := by
      intro fewer within
      obtain ⟨above, climbed⟩ := reached fewer (by simpa [Nat.lt_succ_iff] using within)
      rw [List.mem_toFinset, climbed]
      exact mem_of_climb member climbed
    have crowded : graph.nodes.toFinset.card < (Finset.range (steps + 1)).card := by
      rw [Finset.card_range]
      have := List.toFinset_card_le graph.nodes
      omega
    obtain ⟨first, firstIn, second, secondIn, different, same⟩ :=
      Finset.exists_ne_map_eq_of_card_lt_of_maps_to crowded inside
    wlog order : first < second generalizing first second
    · exact this second secondIn first firstIn different.symm same.symm (by omega)
    rw [Finset.mem_range] at firstIn secondIn
    obtain ⟨above, climbed⟩ := reached first (by omega)
    obtain ⟨above', climbed'⟩ := reached second (by omega)
    rw [climbed, climbed', Option.getD_some, Option.getD_some] at same
    have rest : steps = second + (steps - second) := by omega
    rw [rest, climb_add, climbed'] at found
    refine ih (first + (steps - second)) (by omega) ?_
    rw [climb_add, climbed, same]
    exact found

theorem node?_parentOf? {parent : CanvasNode} (found : graph.parentOf? node = some parent) :
    graph.node? parent.id = some parent := by
  obtain ⟨id, -, first⟩ := Option.bind_eq_some_iff.mp found
  have same : parent.id = id := by simpa using List.find?_some first
  rw [same]
  exact first

theorem id_of_node? (found : graph.node? id = some node) : node.id = id := by
  simpa using List.find?_some found

/-- Climbing reaches what a node lies below. -/
theorem climb_iff (known : (graph.node? inner).isSome = true) :
    (∃ steps node, graph.climb steps (graph.node? inner) = some node ∧ node.id = outer) ↔
      Relation.ReflTransGen graph.Under inner outer := by
  constructor
  · rintro ⟨steps, node, found, rfl⟩
    induction steps generalizing inner with
    | zero => exact id_of_node? found ▸ .refl
    | succ steps ih =>
      obtain ⟨child, first⟩ := Option.isSome_iff_exists.mp known
      rw [climb, first, Option.bind_some] at found
      cases above : graph.parentOf? child with
      | none =>
        rw [above, climb_none] at found
        cases found
      | some parent =>
        have there := node?_parentOf? above
        rw [above, ← there] at found
        have under : graph.Under inner parent.id := ⟨child, first, by rw [above, Option.map_some]⟩
        exact .head under (ih (by rw [there]; rfl) found)
  · intro inside
    induction inside using Relation.ReflTransGen.head_induction_on with
    | refl =>
      obtain ⟨node, found⟩ := Option.isSome_iff_exists.mp known
      exact ⟨0, node, found, id_of_node? found⟩
    | head under _ ih =>
      obtain ⟨child, found, above⟩ := under
      obtain ⟨parent, parentFound, rfl⟩ := Option.map_eq_some_iff.mp above
      have there := node?_parentOf? parentFound
      obtain ⟨steps, node, climbed, same⟩ := ih (by rw [there]; rfl)
      refine ⟨steps + 1, node, ?_, same⟩
      rw [climb, found, Option.bind_some, parentFound, ← there]
      exact climbed

/-- The nodes around a node are itself and all that it lies below. -/
theorem mem_enclosing_iff (known : (graph.node? inner).isSome = true) :
    outer ∈ graph.enclosing graph.nodes.length (graph.node? inner) ↔
      Relation.ReflTransGen graph.Under inner outer := by
  rw [mem_enclosing, ← climb_iff known]
  constructor
  · rintro ⟨steps, -, node, found, same⟩
    exact ⟨steps, node, found, same⟩
  · rintro ⟨steps, node, found, same⟩
    have member : ∀ node ∈ graph.node? inner, node ∈ graph.nodes :=
      fun _ found => List.mem_of_find?_eq_some found
    obtain ⟨few, enough, found⟩ := climb_short member found
    exact ⟨few, enough, node, found, same⟩

/-- The nodes around the parent of a node are all that the node lies below. -/
theorem mem_enclosing_parent (found : graph.node? id = some node) :
    outer ∈ graph.enclosing graph.nodes.length (graph.parentOf? node) ↔ graph.Inside id outer := by
  rw [Inside, Relation.TransGen.head'_iff]
  cases above : graph.parentOf? node with
  | none =>
    constructor
    · intro member
      simp [mem_enclosing, climb_none] at member
    · rintro ⟨_, ⟨node', found', under⟩, -⟩
      rw [found] at found'
      cases found'
      rw [above] at under
      cases under
  | some parent =>
    have there := node?_parentOf? above
    have known : (graph.node? parent.id).isSome = true := by rw [there]; rfl
    rw [← there, mem_enclosing_iff known]
    constructor
    · exact fun up => ⟨_, ⟨node, found, by rw [above, Option.map_some]⟩, up⟩
    · rintro ⟨_, ⟨node', found', under⟩, up⟩
      rw [found] at found'
      cases found'
      rw [above] at under
      cases under
      exact up

/-! ## Graphs with the same parents -/

theorem enclosing_congr (same : graph'.nodes = graph.nodes) (fuel : Nat)
    (start : Option CanvasNode) : graph'.enclosing fuel start = graph.enclosing fuel start := by
  induction fuel generalizing start with
  | zero => rfl
  | succ fuel ih =>
    cases start with
    | none => rfl
    | some node =>
      have above : graph'.parentOf? node = graph.parentOf? node := by
        rw [parentOf?, parentOf?, funext fun id => show graph'.node? id = graph.node? id by
          rw [node?, node?, same]]
      rw [enclosing, enclosing, above, ih]

theorem nodes_dropBodies_congr (same : graph'.nodes = graph.nodes) (id : Option String) :
    (graph'.dropBodies id).nodes = (graph.dropBodies id).nodes := by
  have lookup : graph'.node? = graph.node? := by
    funext id
    rw [node?, node?, same]
  rw [dropBodies, dropBodies]
  dsimp only
  rw [lookup, same, enclosing_congr same]

theorem nodes_dropBodies_none (graph : Graph) : (graph.dropBodies none).nodes = graph.nodes := by
  have nothing : graph.enclosing graph.nodes.length none = [] := by
    cases graph.nodes.length <;> rfl
  show (graph.nodes.map fun node =>
    if (graph.enclosing graph.nodes.length none).contains node.id then node.withoutBody else node) = _
  rw [nothing]
  simp

section Changed

variable {change : CanvasNode → CanvasNode}

theorem node?_map (nodes : graph'.nodes = graph.nodes.map change)
    (ids : ∀ node, (change node).id = node.id) (id : String) :
    graph'.node? id = (graph.node? id).map change := by
  have same : (fun node : CanvasNode => node.id == id) ∘ change = fun node => node.id == id := by
    funext node
    rw [Function.comp, ids]
  rw [node?, node?, nodes, List.find?_map, same]

/-- Changing nodes under their ids and parents leaves what lies below what. -/
theorem under_map (nodes : graph'.nodes = graph.nodes.map change)
    (ids : ∀ node, (change node).id = node.id)
    (parents : ∀ node, (change node).parent = node.parent) : graph'.Under = graph.Under := by
  have above (node : CanvasNode) :
      (graph'.parentOf? (change node)).map (·.id) = (graph.parentOf? node).map (·.id) := by
    rw [parentOf?, parentOf?, parents]
    cases given? node.parent with
    | none => rfl
    | some id =>
      rw [Option.bind_some, Option.bind_some, node?_map nodes ids, Option.map_map]
      exact congrArg (fun read => Option.map read (graph.node? id)) (funext ids)
  funext child parent
  rw [Under, Under, node?_map nodes ids]
  refine propext ⟨?_, ?_⟩
  · rintro ⟨node', found', under⟩
    obtain ⟨node, found, rfl⟩ := Option.map_eq_some_iff.mp found'
    exact ⟨node, found, (above node) ▸ under⟩
  · rintro ⟨node, found, under⟩
    exact ⟨change node, by rw [found, Option.map_some], (above node).symm ▸ under⟩

/-- A change of one node, as a change of all. -/
def only (id : String) (change : CanvasNode → CanvasNode) (node : CanvasNode) : CanvasNode :=
  if node.id == id then change node else node

theorem id_only (id : String) (change : CanvasNode → CanvasNode)
    (ids : ∀ node, (change node).id = node.id) (node : CanvasNode) :
    (only id change node).id = node.id := by
  rw [only]
  split
  · exact ids node
  · rfl

theorem node?_adjust (ids : ∀ node, (change node).id = node.id) (id other : String) :
    (graph.adjust id change).node? other = (graph.node? other).map (only id change) :=
  node?_map rfl (id_only id change ids) other

theorem node?_adjust_self (change : CanvasNode → CanvasNode)
    (ids : ∀ node, (change node).id = node.id) (found : graph.node? id = some node) :
    (graph.adjust id change).node? id = some (change node) := by
  rw [node?_adjust ids, found, Option.map_some, only, if_pos (by simp [id_of_node? found])]

theorem node?_adjust_ne (change : CanvasNode → CanvasNode)
    (ids : ∀ node, (change node).id = node.id) {other : String} (apart : other ≠ id) :
    (graph.adjust id change).node? other = graph.node? other := by
  rw [node?_adjust ids]
  cases found : graph.node? other with
  | none => rfl
  | some node =>
    rw [Option.map_some, only, if_neg (by simp [id_of_node? found, apart])]

theorem ids_adjust (change : CanvasNode → CanvasNode)
    (ids : ∀ node, (change node).id = node.id) (id : String) :
    (graph.adjust id change).ids = graph.ids := by
  show (graph.nodes.map (only id change)).map (·.id) = graph.ids
  rw [List.map_map]
  exact List.map_congr_left fun node _ => id_only id change ids node

theorem under_adjust (change : CanvasNode → CanvasNode) (ids : ∀ node, (change node).id = node.id)
    (parents : ∀ node, (change node).parent = node.parent) (id : String) :
    (graph.adjust id change).Under = graph.Under := by
  refine under_map rfl (id_only id change ids) fun node => ?_
  show (only id change node).parent = node.parent
  rw [only]
  split
  · exact parents node
  · rfl

end Changed

end Graph

/-! ## Drawing edges -/

namespace Graph

variable {graph : Graph} {edge : Edge} {id : String} {node source target : CanvasNode}
  {from_ into : Attributes}

theorem hasNode_of_node? (found : graph.node? id = some node) : graph.hasNode id = true := by
  rw [hasNode_iff, ← id_of_node? found]
  exact List.mem_map_of_mem (List.mem_of_find?_eq_some found)

theorem ends_of_node? (first : graph.node? edge.source = some source)
    (second : graph.node? edge.target = some target) :
    (graph.hasNode edge.source && graph.hasNode edge.target) = true := by
  rw [hasNode_of_node? first, hasNode_of_node? second]
  rfl

/-- A graph with an edge in the place of all with its id. -/
def withEdge (graph : Graph) (edge : Edge) : Graph :=
  { graph with edges := graph.edges.filter (·.id != edge.id) ++ [edge] }

/-- Between nodes with attributes, an edge does what its handle says. -/
theorem connect_of_typed (first : graph.node? edge.source = some source)
    (second : graph.node? edge.target = some target) (given : source.content = .typed from_)
    (taken : target.content = .typed into) : graph.connect edge =
      match effect source target from_ into (edge.targetHandle.getD "") with
      | .error fault => (graph.withEdge edge, .error fault)
      | .ok none => (graph.withEdge edge, .ok false)
      | .ok (some does) =>
        (((graph.withEdge edge).applyEffect edge.source edge.target does).dropBodies
          (some edge.target), .ok true) := by
  have first' : (graph.withEdge edge).node? edge.source = some source := first
  have second' : (graph.withEdge edge).node? edge.target = some target := second
  rw [withEdge] at first' second' ⊢
  rw [connect, addEdge?, if_pos (ends_of_node? first second)]
  rcases said : effect source target from_ into (edge.targetHandle.getD "") with fault | (_ | does)
  all_goals simp only [first', second', given, taken, said]

end Graph

/-! ## Edits -/

/-- A node moved below another one. -/
def CanvasNode.below (parent : String) (node : CanvasNode) : CanvasNode :=
  { node with parent := some parent }

/-- A node with another content. -/
def CanvasNode.holding (content : Content) (node : CanvasNode) : CanvasNode := { node with content }

/-- What a change that the text shows does to a node. -/
inductive GraphEdit where
  /-- a node comes -/
  | insert (node : CanvasNode)
  /-- a node goes -/
  | remove (id : String)
  /-- a node comes to lie below another one -/
  | adopt (id parent : String)
  /-- a node gets another content, and the bodies from some node on upwards are dropped -/
  | write (id : String) (content : Content) (around : Option String)

namespace GraphEdit

variable {graph : Graph} {edit : GraphEdit} {node : CanvasNode} {id : String}

/-- The node that an edit is about. -/
def subject : GraphEdit → String
  | insert node => node.id
  | remove id | adopt id _ | write id _ _ => id

/-- The node from which on upwards an edit drops bodies. -/
def around : GraphEdit → Option String
  | insert _ | remove _ => none
  | adopt _ parent => some parent
  | write _ _ around => around

/-- A graph once an edit is made, with all bodies still there. -/
def apply (edit : GraphEdit) (graph : Graph) : Graph :=
  match edit with
  | insert node => graph.insertNode node
  | remove id => { graph with nodes := graph.nodes.filter (·.id != id) }
  | adopt id parent => graph.adjust id (·.below parent)
  | write id content _ => graph.adjust id (·.holding content)

/-- What an edge does to its ends, as an edit. -/
def ofEffect (source target : String) : Effect → GraphEdit
  | .adopt => adopt source target
  | .write attributes => write target (.typed attributes) (some target)

/-- A command comes to an edit in a session. -/
inductive Asked (session : Session) : Command → GraphEdit → Prop
  | addNode (kind : String) (position : Point) (parent : Option String) :
    Asked session (.addNode kind position parent)
      (.insert (CanvasNode.create kind position (parent.map session.graph.resolve)
        session.supply.drawNode.1))
  | removeNode {id : String} (known : session.graph.hasNode (session.graph.resolve id) = true) :
    Asked session (.removeNode id) (.remove (session.graph.resolve id))
  | connect {source target : String} {sourceHandle targetHandle : Option String}
    {sourceNode targetNode : CanvasNode} {from_ into : Attributes} {effect : Effect}
    (first : session.graph.node? (session.graph.resolve source) = some sourceNode)
    (second : session.graph.node? (session.graph.resolve target) = some targetNode)
    (given : sourceNode.content = .typed from_) (taken : targetNode.content = .typed into)
    (does : SourceCanvas.effect sourceNode targetNode from_ into (targetHandle.getD "") =
      .ok (some effect)) :
    Asked session (.connect source target sourceHandle targetHandle)
      (ofEffect (session.graph.resolve source) (session.graph.resolve target) effect)
  | update {id : String} {changes : Json.Fields} {node : CanvasNode} {content : Content}
    (free : Graph.reservedNames.find? changes.has = none)
    (found : session.graph.node? (session.graph.resolve id) = some node)
    (changed : Graph.changedContent node changes = .ok content) :
    Asked session (.update id changes) (.write (session.graph.resolve id) content node.parent)

end GraphEdit

namespace GraphEdit

open Session (GraphChange)

variable {session : Session} {command : Command} {graph : Graph} {node : CanvasNode}
  {edit : GraphEdit} {id : String}

/-- A command that comes to an edit makes it, and drops bodies. -/
theorem Asked.shown (asked : Asked session command edit) :
    ∃ change after, command.change? session = some change ∧
      change session.graph = (after, .ok .visible) ∧
      after.nodes = ((edit.apply session.graph).dropBodies edit.around).nodes := by
  cases asked with
  | addNode => exact ⟨_, _, rfl, rfl, (Graph.nodes_dropBodies_none _).symm⟩
  | @removeNode id known =>
    obtain ⟨rest, removed⟩ : ∃ rest,
        session.graph.removeNode? (session.graph.resolve id) = some rest := ⟨_, if_pos known⟩
    refine ⟨_, rest, rfl, ?_, ?_⟩
    · rw [GraphChange.remove, removed]
    · rw [Graph.nodes_of_removeNode? removed]
      exact (Graph.nodes_dropBodies_none ((remove (session.graph.resolve id)).apply _)).symm
  | @connect source target sourceHandle targetHandle _ _ _ _ effect first second given taken does =>
    let edge : Edge := {
      id := session.supply.drawEdge.1
      source := session.graph.resolve source, sourceHandle
      target := session.graph.resolve target, targetHandle }
    have connected : session.graph.connect edge =
        (((session.graph.withEdge edge).applyEffect edge.source edge.target effect).dropBodies
          (some edge.target), .ok true) := by
      rw [Graph.connect_of_typed first second given taken, does]
    refine ⟨.connect edge, ((session.graph.withEdge edge).applyEffect edge.source edge.target
      effect).dropBodies (some edge.target), rfl, ?_, ?_⟩
    · rw [GraphChange.connect, if_pos (Graph.ends_of_node? first second), connected]
      rfl
    · have same : ((session.graph.withEdge edge).applyEffect edge.source edge.target effect).nodes =
          ((ofEffect edge.source edge.target effect).apply session.graph).nodes := by
        cases effect <;> rfl
      have dropped : (ofEffect edge.source edge.target effect).around = some edge.target := by
        cases effect <;> rfl
      rw [dropped]
      exact Graph.nodes_dropBodies_congr same _
  | @update id changes node content free found changed =>
    have unnamed : Graph.nodeNames.find? changes.has = none :=
      List.find?_eq_none.mpr fun name member =>
        List.find?_eq_none.mp free name (List.mem_cons_of_mem _ member)
    refine ⟨.update (session.graph.resolve id) changes, (session.graph.adjust _ fun node =>
      { node with content }).dropBodies node.parent, ?_, ?_, rfl⟩
    · rw [Command.change?, unnamed]
      rfl
    · rw [GraphChange.update, Graph.update, free, found]
      dsimp only
      rw [changed]
      rfl

/-! ## What an edit touches -/

/-- An edit changes which nodes lie below a node, or what one of them says. -/
def Disturbs (graph : Graph) (outer : String) : GraphEdit → Prop
  | insert node => (graph.insertNode node).Inside node.id outer
  | remove id => graph.Inside id outer
  | adopt id parent =>
    ¬(graph.Inside id outer ↔ ((adopt id parent).apply graph).Inside id outer)
  | write id _ _ => graph.Inside id outer

/-- An edit is about a node or about what lies below it. -/
def Touches (edit : GraphEdit) (graph : Graph) (outer : String) : Prop :=
  edit.subject = outer ∨ graph.Inside edit.subject outer ∨
    (edit.apply graph).Inside edit.subject outer

/-- An edit drops the body of a function around the node that it is about. -/
def Drops (graph : Graph) (outer : String) : GraphEdit → Prop
  | insert _ | remove _ => False
  | adopt id parent => ((adopt id parent).apply graph).Inside id outer
  | write id _ around => graph.Inside id outer ∧ around ≠ some ""

/-- The captured body of a node once an edit is made, before bodies are dropped. -/
def bodyOf (edit : GraphEdit) (graph : Graph) (id : String) : Option String :=
  ((edit.apply graph).node? id).bind CanvasNode.body?

/-! ## What an edit leaves alone -/

theorem node?_insertInto {node : CanvasNode} {nodes : List CanvasNode} {id : String}
    (other : id ≠ node.id) : (Graph.insertInto node nodes).find? (·.id == id) =
      nodes.find? (·.id == id) := by
  induction nodes with
  | nil => simp [Graph.insertInto, Ne.symm other]
  | cons first rest ih =>
    rw [Graph.insertInto]
    split
    · next same => simp [same, Ne.symm other]
    · rw [List.find?_cons, List.find?_cons, ih]

/-- Other nodes than the one that an edit is about stay. -/
theorem node?_apply (edit : GraphEdit) (graph : Graph) (other : id ≠ edit.subject) :
    (edit.apply graph).node? id = graph.node? id := by
  cases edit with
  | insert node => exact node?_insertInto other
  | remove gone =>
    show (graph.nodes.filter (·.id != gone)).find? (·.id == id) = _
    rw [List.find?_filter]
    refine congrArg (fun test => graph.nodes.find? test) (funext fun node => ?_)
    have different : id ≠ gone := other
    by_cases same : node.id = id
    · simp [same, different]
    · simp [same]
  | adopt moved parent =>
    exact Graph.node?_adjust_ne (·.below parent) (fun _ => rfl) other
  | write written content around =>
    exact Graph.node?_adjust_ne (·.holding content) (fun _ => rfl) other

theorem nodup_ids_apply (apart : graph.ids.Nodup) (edit : GraphEdit) :
    (edit.apply graph).ids.Nodup := by
  cases edit with
  | insert node => exact Graph.nodup_ids_insertInto apart
  | remove id => exact apart.sublist (List.filter_sublist.map _)
  | adopt id parent =>
    rw [apply, Graph.ids_adjust (·.below parent) fun _ => rfl]
    exact apart
  | write id content around =>
    rw [apply, Graph.ids_adjust (·.holding content) fun _ => rfl]
    exact apart

theorem ids_dropBodies (graph : Graph) (around : Option String) :
    (graph.dropBodies around).nodes.map (·.id) = graph.ids := by
  rw [Graph.dropBodies, List.map_map]
  refine List.map_congr_left fun node _ => ?_
  rw [Function.comp]
  split
  · exact Graph.id_withoutBody node
  · rfl

/-! ## Where bodies are dropped -/

theorem body?_withoutBody (node : CanvasNode) :
    node.withoutBody.body? = node.body?.filter (· = "") := by
  rw [CanvasNode.withoutBody]
  split
  · next function typed => rw [CanvasNode.body?, CanvasNode.body?, typed]
  · next other =>
    have none : node.body? = none := by
      rw [CanvasNode.body?]
      split
      · next function typed => exact absurd typed (other function)
      · rfl
    rw [none]
    rfl

/-- What an edit leaves as the body of a node, once bodies are dropped. -/
theorem body?_dropped (apart : graph.ids.Nodup) {around : Option String}
    (member : node ∈ (graph.dropBodies around).nodes) :
    node.body? = if node.id ∈ graph.enclosing graph.nodes.length
        ((given? around).bind graph.node?)
      then ((graph.node? node.id).bind CanvasNode.body?).filter (· = "")
      else (graph.node? node.id).bind CanvasNode.body? := by
  obtain ⟨before, inside, rfl⟩ := List.mem_map.mp member
  have same (dropped : Bool) :
      (if dropped then before.withoutBody else before).id = before.id := by
    cases dropped
    · rfl
    · exact Graph.id_withoutBody before
  rw [same, Graph.node?_of_mem apart inside, Option.bind_some]
  by_cases dropped : before.id ∈ graph.enclosing graph.nodes.length
      ((given? around).bind graph.node?)
  · rw [if_pos (List.contains_iff_mem.mpr dropped), if_pos dropped]
    exact body?_withoutBody before
  · rw [if_neg (fun held => dropped (List.contains_iff_mem.mp held)), if_neg dropped]

theorem enclosing_none (graph : Graph) (fuel : Nat) : graph.enclosing fuel none = [] := by
  cases fuel <;> rfl

/-- No edge writes into a function. -/
theorem not_isFunction_of_write {source target : CanvasNode} {from_ into attributes : Attributes}
    {handle : String} (taken : target.content = .typed into)
    (does : effect source target from_ into handle = .ok (some (.write attributes))) :
    target.isFunction = false := by
  rw [CanvasNode.isFunction, taken]
  split
  · next function same =>
    cases same
    rw [effect] at does
    split at does <;> cases does
  · rfl

/-- An edit drops the body of a function if it is about something below the function, unless it only
puts it there or takes it away. -/
theorem Asked.dropped_iff (asked : Asked session command edit) (apart : session.graph.ids.Nodup)
    {function : CanvasNode} (member : function ∈ session.graph.nodes)
    (callable : function.isFunction = true) :
    function.id ∈ (edit.apply session.graph).enclosing (edit.apply session.graph).nodes.length
        ((given? edit.around).bind (edit.apply session.graph).node?) ↔
      edit.Drops session.graph function.id := by
  cases asked with
  | addNode => simp [around, Drops, given?, enclosing_none]
  | removeNode known => simp [around, Drops, given?, enclosing_none]
  | @connect source target sourceHandle targetHandle sourceNode targetNode from_ into effect first
      second given taken does =>
    cases effect with
    | adopt =>
      exact Graph.mem_enclosing_parent (Graph.node?_adjust_self
        (·.below (session.graph.resolve target)) (fun _ => rfl) first)
    | write written =>
      have other : function.id ≠ session.graph.resolve target := by
        intro same
        have found := Graph.node?_of_mem apart member
        rw [same, second] at found
        cases found
        rw [not_isFunction_of_write taken does] at callable
        cases callable
      let after := session.graph.adjust (session.graph.resolve target) (·.holding (.typed written))
      have known : after.node? (session.graph.resolve target) = _ :=
        Graph.node?_adjust_self (·.holding (.typed written)) (fun _ => rfl) second
      have under : after.Under = session.graph.Under :=
        Graph.under_adjust (·.holding (.typed written)) (fun _ => rfl) (fun _ => rfl) _
      show function.id ∈ after.enclosing after.nodes.length
          ((given? (some (session.graph.resolve target))).bind after.node?) ↔
        session.graph.Inside (session.graph.resolve target) function.id ∧
          some (session.graph.resolve target) ≠ some ""
      by_cases empty : session.graph.resolve target = ""
      · rw [empty]
        simp [given?, Text.nonempty?, enclosing_none]
      · rw [Text.given?_eq_some.mpr ⟨rfl, empty⟩, Option.bind_some,
          Graph.mem_enclosing_iff (by rw [known]; rfl), under,
          Relation.reflTransGen_iff_eq_or_transGen]
        exact ⟨fun up => ⟨up.resolve_left other, by simpa using empty⟩, fun drops => .inr drops.1⟩
  | @update id changes node content free found changed =>
    have above : function.id ∈ Graph.enclosing _ _ (Graph.parentOf? _ _) ↔ Graph.Inside _ _ _ :=
      Graph.mem_enclosing_parent
        (Graph.node?_adjust_self (·.holding content) (fun _ => rfl) found)
    rw [Graph.Inside, Graph.under_adjust (·.holding content) (fun _ => rfl) fun _ => rfl] at above
    refine Iff.trans above ⟨fun inside => ⟨inside, fun empty => ?_⟩, And.left⟩
    have parentless : session.graph.parentOf? node = none := by
      rw [Graph.parentOf?, show node.parent = some "" from empty]
      rfl
    have up := (Graph.mem_enclosing_parent found).mpr inside
    rw [parentless, enclosing_none] at up
    cases up

/-- Nothing is dropped or written where an edit touches nothing. -/
theorem Drops.touches {outer : String} (drops : edit.Drops graph outer) :
    edit.Touches graph outer := by
  cases edit with
  | insert | remove => exact drops.elim
  | adopt id parent => exact .inr (.inr drops)
  | write id content around => exact .inr (.inl drops.1)

theorem bodyOf_untouched (apart : graph.ids.Nodup) (member : node ∈ graph.nodes)
    (other : edit.subject ≠ node.id) : edit.bodyOf graph node.id = node.body? := by
  rw [bodyOf, node?_apply edit graph (Ne.symm other), Graph.node?_of_mem apart member,
    Option.bind_some]

end GraphEdit

/-! ## Dropped bodies -/

/-- After an edit that changes what lies below a function, the function has no captured body; after
one that touches nothing in it, it has the one it had. -/
structure Graph.Invalidated (graph : Graph) (edit : GraphEdit) (function function' : CanvasNode) :
    Prop where
  dropped : edit.Disturbs graph function.id → function'.body? = none
  kept : ¬edit.Touches graph function.id → function'.body? = function.body?

namespace Session

open GraphEdit (Asked)

variable {session : Session} {command : Command} {change : GraphChange} {edit : GraphEdit}
  {graph : Graph}

theorem filter_empty_eq_none {body : Option String} :
    body.filter (· = "") = none ↔ body ≠ some "" := by
  cases body with
  | none => simp
  | some text => simp [Option.filter]

/-- What is left of a function has its body or none, as the edit drops it. -/
theorem Becomes.body? {after : Graph} {function node function' : CanvasNode}
    (apart : session.graph.ids.Nodup) (asked : Asked session command edit)
    (member : function ∈ session.graph.nodes) (callable : function.isFunction = true)
    (nodes : graph.nodes = ((edit.apply session.graph).dropBodies edit.around).nodes)
    (becomes : session.Becomes graph after node function') (same : node.id = function.id) :
    (edit.Drops session.graph function.id →
      function'.body? = (edit.bodyOf session.graph function.id).filter (· = "")) ∧
    (¬edit.Drops session.graph function.id →
      function'.body? = edit.bodyOf session.graph function.id) := by
  have left := GraphEdit.body?_dropped (GraphEdit.nodup_ids_apply apart edit)
    (nodes ▸ becomes.member)
  rw [becomes.same, body?_renewedNode, left, same]
  have dropped := asked.dropped_iff apart member callable
  exact ⟨fun drops => if_pos (dropped.mpr drops), fun drops => if_neg fun held =>
    drops (dropped.mp held)⟩

/-- **Captured bodies**: a node that an edit leaves is what is left of a node of the changed graph.
If that was a function, its body is treated as it should be exactly if no change below the function
spares the body: it is dropped where an edit writes into the function or moves a node there, but not
where nodes come, go or leave, and not if it is empty. -/
theorem invalidated_iff (depth : Nat) (idle : session.phase = .idle)
    (listeners : session.setup.OperatesOnly) (apart : session.graph.ids.Nodup)
    (asks : command.change? session = some change) (asked : Asked session command edit)
    {function' : CanvasNode} (member' : function' ∈ (session.next depth command).graph.nodes) :
    ∃ node, session.Becomes (change session.graph).1 (session.next depth command).graph
        node function' ∧
      ∀ function ∈ session.graph.nodes, function.isFunction = true → node.id = function.id →
        (session.graph.Invalidated edit function function' ↔
          (edit.Disturbs session.graph function.id →
            edit.bodyOf session.graph function.id = none ∨
              edit.bodyOf session.graph function.id ≠ some "" ∧
                edit.Drops session.graph function.id)) := by
  obtain ⟨change', made, asks', shown, nodes⟩ := asked.shown
  rw [asks] at asks'
  cases asks'
  have apart' : made.ids.Nodup := by
    rw [Graph.ids, nodes, GraphEdit.ids_dropBodies]
    exact GraphEdit.nodup_ids_apply apart edit
  obtain ⟨node, becomes⟩ := exists_becomes depth idle listeners asks shown apart' member'
  rw [shown]
  refine ⟨node, becomes, fun function member callable same => ?_⟩
  obtain ⟨dropped, spared⟩ := becomes.body? apart asked member callable nodes same
  constructor
  · intro invalidated disturbs
    have none := invalidated.dropped disturbs
    by_cases drops : edit.Drops session.graph function.id
    · exact .inr ⟨filter_empty_eq_none.mp (dropped drops ▸ none), drops⟩
    · exact .inl (spared drops ▸ none)
  · intro treated
    refine ⟨fun disturbs => ?_, fun untouched => ?_⟩
    · by_cases drops : edit.Drops session.graph function.id
      · rw [dropped drops]
        rcases treated disturbs with none | ⟨filled, -⟩
        · rw [none]
          rfl
        · exact filter_empty_eq_none.mpr filled
      · rw [spared drops]
        exact (treated disturbs).resolve_right fun held => drops held.2
    · rw [spared fun drops => untouched drops.touches]
      exact GraphEdit.bodyOf_untouched apart member fun same => untouched (.inl same)

/-- A session in which a function has been read. -/
def captured : Session :=
  (start {} none {}).next 0 (.changeText (.whole "function f() \x7b return a + b; \x7d"))

/-- The graph of that session once its operation has another operand. -/
def reworked : Graph :=
  (GraphChange.update (captured.graph.resolve "#1") [("lhs", .string "7")] captured.graph).1

/-- Writing into what a function returns drops the body of the function. -/
theorem invalidated_captured :
    ∃ edit, Asked captured (.update "#1" [("lhs", .string "7")]) edit ∧
      ∃ function ∈ captured.graph.nodes, ∃ function' ∈
        (captured.next 0 (.update "#1" [("lhs", .string "7")])).graph.nodes,
        edit.Disturbs captured.graph function.id ∧
          captured.graph.Invalidated edit function function' := by
  obtain ⟨unheard, idle, apart, node, found, changes, below, filled⟩ :
      captured.setup.listeners = [] ∧ captured.phase = .idle ∧ captured.graph.ids.Nodup ∧
        ∃ node ∈ captured.graph.node? (captured.graph.resolve "#1"),
          (Graph.changedContent node [("lhs", .string "7")]).toOption.isSome = true ∧
          (captured.graph.parentOf? node).map (·.id) = some "fca25462ed366225" ∧
          node.parent ≠ some "" := by
    decide +kernel
  have listeners := Setup.operatesOnly_of_unheard unheard
  obtain ⟨function, inside, named, callable, kept, other⟩ : ∃ function ∈ captured.graph.nodes,
      function.id = "fca25462ed366225" ∧ function.isFunction = true ∧
        function.body? ≠ some "" ∧ captured.graph.resolve "#1" ≠ function.id := by
    decide +kernel
  obtain ⟨function', inside', callable'⟩ : ∃ function' ∈
      (captured.next 0 (.update "#1" [("lhs", .string "7")])).graph.nodes,
      function'.isFunction = true := by
    decide +kernel
  have only : ∀ node ∈ reworked.nodes,
      (captured.renewedNode reworked node).isFunction = true → node.id = "fca25462ed366225" := by
    decide +kernel
  obtain ⟨content, changed⟩ : ∃ content,
      Graph.changedContent node [("lhs", .string "7")] = .ok content := by
    cases result : Graph.changedContent node [("lhs", .string "7")] with
    | error fault =>
      rw [result] at changes
      cases changes
    | ok content => exact ⟨content, rfl⟩
  have asked : Asked captured (.update "#1" [("lhs", .string "7")])
      (.write (captured.graph.resolve "#1") content node.parent) :=
    .update (by decide +kernel) found changed
  have disturbs : captured.graph.Inside (captured.graph.resolve "#1") function.id :=
    .single ⟨node, found, named ▸ below⟩
  have asks : Command.change? captured (.update "#1" [("lhs", .string "7")]) =
      some (.update (captured.graph.resolve "#1") [("lhs", .string "7")]) := by
    rw [Command.change?, if_neg (by decide +kernel)]
  obtain ⟨left, becomes, treated⟩ := invalidated_iff 0 idle listeners apart asks asked inside'
  have becomes : captured.Becomes reworked _ left function' := becomes
  have still : (captured.renewedNode reworked left).isFunction = true :=
    becomes.same ▸ callable'
  have same : left.id = function.id := (only left becomes.member still).trans named.symm
  have untouched : (GraphEdit.write (captured.graph.resolve "#1") content node.parent).bodyOf
      captured.graph function.id = function.body? := by
    refine GraphEdit.bodyOf_untouched apart inside ?_
    rw [GraphEdit.subject]
    exact other
  refine ⟨_, asked, function, inside, function', inside', disturbs,
    (treated function inside callable same).mpr fun _ => .inr ⟨?_, disturbs, filled⟩⟩
  rw [untouched]
  exact kept

/-- Removing what a function returns leaves the body of the function, which still returns it. -/
theorem not_invalidated_captured :
    ∃ function ∈ captured.graph.nodes, ∃ function' ∈
        (captured.next 0 (.removeNode "#1")).graph.nodes,
      Asked captured (.removeNode "#1") (.remove (captured.graph.resolve "#1")) ∧
        function.isFunction = true ∧ function'.body? = some "return a + b;" ∧
        ¬captured.graph.Invalidated (.remove (captured.graph.resolve "#1")) function function' := by
  obtain ⟨node, found, known, function, inside, callable, below⟩ :
      ∃ node ∈ captured.graph.node? (captured.graph.resolve "#1"),
        captured.graph.hasNode (captured.graph.resolve "#1") = true ∧
          ∃ function ∈ captured.graph.nodes, function.isFunction = true ∧
            (captured.graph.parentOf? node).map (·.id) = some function.id := by
    decide +kernel
  obtain ⟨function', inside', left⟩ : ∃ function' ∈
      (captured.next 0 (.removeNode "#1")).graph.nodes,
        function'.body? = some "return a + b;" := by
    decide +kernel
  refine ⟨function, inside, function', inside', .removeNode known, callable, left,
    fun invalidated => ?_⟩
  have none := invalidated.dropped (.single ⟨node, found, below⟩)
  rw [left] at none
  cases none

end Session

end SourceCanvas
