import SourceCanvas.Proofs.BlockRanges
import SourceCanvas.Proofs.Connecting

/-!
# Declared names

An expression that stands for itself is bound to its name in the text of a program, and a connection
writes that name where the expression is used. All expressions at the top level are declared, once
they have their operands, and none that lies below another node is (`Program.declares_iff`). So what
a connection writes is declared exactly if the graph does not have the parent of the source
(`Graph.declared_of_connect`).
-/

namespace SourceCanvas

open Naming (materializedName)
open Text (given? nonempty?)

/-! ## Declarations -/

/-- Whether an expression has all of its operands. -/
def Attributes.isConnected : Attributes → Bool
  | .binaryOp a => (given? a.left).isSome && (given? a.right).isSome
  | .call a => (given? a.function).isSome
  | .propertyAccess a => (given? a.object).isSome && (nonempty? a.property).isSome
  | .conditional a =>
    (given? a.test).isSome && (given? a.whenTrue).isSome && (given? a.whenFalse).isSome
  | _ => true

/-- In the range of a node an expression is bound to the name of the node. -/
def Program.Declares (program : Program) (node : Node) : Prop :=
  ∃ span expression, program.ranges.get? node.id = some span ∧
    span.slice program.text.toList = bound (materializedName node) expression

/-- An expression with all of its operands is bound to its name. -/
theorem Attributes.expressionBlock_of_isConnected {attributes : Attributes}
    (kind : attributes.kind.isBound = true) (connected : attributes.isConnected = true)
    (name : String) : ∃ expression, attributes.expressionBlock name = bound name expression := by
  cases attributes with
  | binaryOp a =>
    obtain ⟨left, right⟩ := Bool.and_eq_true_iff.mp connected
    obtain ⟨left, first⟩ := Option.isSome_iff_exists.mp left
    obtain ⟨right, second⟩ := Option.isSome_iff_exists.mp right
    exact ⟨_, by rw [expressionBlock, first, second]⟩
  | call a =>
    obtain ⟨function, found⟩ := Option.isSome_iff_exists.mp connected
    exact ⟨_, by rw [expressionBlock, found]⟩
  | propertyAccess a =>
    obtain ⟨object, property⟩ := Bool.and_eq_true_iff.mp connected
    obtain ⟨object, first⟩ := Option.isSome_iff_exists.mp object
    obtain ⟨property, second⟩ := Option.isSome_iff_exists.mp property
    exact ⟨_, by rw [expressionBlock, first, second]⟩
  | conditional a =>
    obtain ⟨both, whenFalse⟩ := Bool.and_eq_true_iff.mp connected
    obtain ⟨test, whenTrue⟩ := Bool.and_eq_true_iff.mp both
    obtain ⟨test, first⟩ := Option.isSome_iff_exists.mp test
    obtain ⟨whenTrue, second⟩ := Option.isSome_iff_exists.mp whenTrue
    obtain ⟨whenFalse, third⟩ := Option.isSome_iff_exists.mp whenFalse
    exact ⟨_, by rw [expressionBlock, first, second, third]⟩
  | object a => exact ⟨a.expression, rfl⟩
  | console a => exact ⟨a.expression, rfl⟩
  | _ => cases kind

/-- The block of an expression is made of its attributes alone. -/
theorem Node.block_of_isBound {step : Nat} {node : Node} {children : List Node}
    {attributes : Attributes} (typed : node.content = .typed attributes)
    (kind : attributes.kind.isBound = true) :
    node.block step children = .ok (attributes.expressionBlock (materializedName node)) := by
  rw [block, attributes?, typed]
  cases attributes <;> first | rfl | cases kind

namespace Program

variable {step : Nat} {nodes : List Node} {node : Node} {program : Program}
  {attributes : Attributes}

/-- An expression with all of its operands is declared exactly if it lies at the top level. -/
theorem declares_iff (apart : (nodes.map Node.id).Nodup)
    (rendered : render step nodes = .ok program) (member : node ∈ nodes)
    (typed : node.content = .typed attributes) (kind : attributes.kind.isBound = true)
    (connected : attributes.isConnected = true) :
    program.Declares node ↔ node.isTopLevel = true := by
  have shows := shows_of_render apart rendered
  constructor
  · rintro ⟨span, -, found, -⟩
    have known : node.id ∈ program.ranges.names := by
      rw [← Catalog.get?_isSome_iff, found]
      rfl
    rw [shows.names] at known
    obtain ⟨other, inside, same⟩ := List.mem_map.mp known
    obtain ⟨member', top⟩ := List.mem_filter.mp inside
    rwa [← List.inj_on_of_nodup_map apart member' member same]
  · intro top
    obtain ⟨span, found, block⟩ := shows.blocks node member top
    obtain ⟨expression, written⟩ :=
      attributes.expressionBlock_of_isConnected kind connected (materializedName node)
    rw [Node.block_of_isBound typed kind, written] at block
    exact ⟨span, expression, found, (Except.ok.inj block).symm⟩

end Program

/-! ## Connected names -/

/-- Writing where a handle says keeps the name that attributes declare. -/
theorem Attributes.Filled.name? {text handle : String} {before after : Attributes}
    (filled : Filled text handle before after) : after.name? = before.name? := by
  cases filled <;> rfl

theorem materializedName_of_typed {node : Node} {attributes : Attributes}
    (typed : node.content = .typed attributes) : materializedName node =
      (attributes.name?.bind nonempty?).getD
        (Naming.synthesizedName (some attributes.kind) node.id) := by
  rw [materializedName, Node.kind?, typed]
  rfl

/-- Expressions stand for the names that they are bound to. -/
theorem CanvasNode.attributesText_of_isBound (node : CanvasNode) {attributes : Attributes}
    (kind : attributes.kind.isBound = true) :
    node.attributesText attributes = some (materializedName node.toNode) := by
  cases attributes <;> first | rfl | cases kind

/-- Nothing is called that is bound to a name. -/
theorem Attributes.signature?_of_isBound {attributes : Attributes}
    (kind : attributes.kind.isBound = true) : attributes.signature? = none := by
  cases attributes <;> first | rfl | cases kind

namespace Graph

variable {graph graph' : Graph} {edge : Edge} {node source target : CanvasNode}
  {attributes into : Attributes}

theorem render_of_typed (typed : ∀ node ∈ graph.nodes, node.content.isTyped = true) (step : Nat) :
    ∃ program, render step graph.toNodes = .ok program := by
  refine Program.render_of_readable fun node member => ?_
  obtain ⟨node, inside, rfl⟩ := List.mem_map.mp member
  exact Node.readable_of_typed (.inl (typed node inside))

/-- In the text of a graph an expression with all of its operands is declared exactly if the graph
does not have its parent. -/
theorem declares_iff {step : Nat} {program : Program} (apart : graph.ids.Nodup)
    (rendered : render step graph.toNodes = .ok program) (member : node ∈ graph.nodes)
    (typed : node.content = .typed attributes) (kind : attributes.kind.isBound = true)
    (connected : attributes.isConnected = true) :
    program.Declares node.toNode ↔ ∀ parent ∈ node.parent, graph.hasNode parent = false := by
  have listed : graph.listed node ∈ graph.toNodes := List.mem_map_of_mem member
  rw [← ids_toNodes] at apart
  refine (Program.declares_iff apart rendered listed typed kind connected).trans ?_
  rw [Node.isTopLevel, Graph.listed, Option.isNone_iff_eq_none, Option.filter_eq_none_iff]
  simp only [Bool.not_eq_true, Option.mem_def]

/-- Only functions have a body to drop. -/
theorem spare_of_other (around : List String) (typed : node.content = .typed attributes)
    (other : attributes.kind ≠ .functionDecl) : spare around node = node := by
  rcases spare_cases around node with same | same
  · exact same
  · rw [same, CanvasNode.withoutBody, typed]
    cases attributes with
    | functionDecl => exact (other rfl).elim
    | _ => rfl

theorem isTyped_spare (around : List String) (node : CanvasNode) :
    (spare around node).content.isTyped = node.content.isTyped := by
  rcases spare_cases around node with same | same
  · rw [same]
  · rw [same, CanvasNode.withoutBody_eq]
    obtain ⟨⟨id, content, parent, span⟩, position⟩ := node
    cases content with
    | typed attributes => cases attributes <;> rfl
    | raw kind payload => rfl

/-- Writing attributes into a node and dropping bodies leaves nodes with attributes. -/
theorem isTyped_spare_only (around : List String) (id : String) (written : Attributes)
    (typed : node.content.isTyped = true) :
    (spare around (only id (·.holding (.typed written)) node)).content.isTyped = true := by
  rw [isTyped_spare, only]
  split
  · rfl
  · exact typed

/-- A connection of an expression to anything but a function writes the name that the expression is
bound to where the handle says, and drops bodies. -/
theorem filled_of_connect (returns : graph.connect edge = (graph', .ok true))
    (first : graph.node? edge.source = some source) (second : graph.node? edge.target = some target)
    (given : source.content = .typed attributes) (kind : attributes.kind.isBound = true)
    (taken : target.content = .typed into) (other : into.kind ≠ .functionDecl) :
    ∃ written around,
      into.Filled (materializedName source.toNode) (edge.targetHandle.getD "") written ∧
      graph'.nodes = graph.nodes.map fun node =>
        spare around (only target.id (·.holding (.typed written)) node) := by
  have connection := graph.connection edge
  rw [returns] at connection
  generalize same : ((graph', .ok true) : Graph × Except Fault Bool) = result at connection
  cases connection with
  | refused | idle | stuck => cases same
  | made ends first' second' given' taken' found =>
    rw [first] at first'
    rw [second] at second'
    cases first'
    cases second'
    rw [given] at given'
    rw [taken] at taken'
    cases given'
    cases taken'
    obtain ⟨change, around, connects, nodes, -⟩ :=
      nodes_of_made first second given taken found (Prod.mk.inj same).1
    cases connects with
    | adopt _ function =>
      rw [taken] at function
      cases function
      exact (other rfl).elim
    | refer source _ _ signature =>
      rw [given] at source
      cases source
      rw [Attributes.signature?_of_isBound kind] at signature
      cases signature
    | fill source target stands filled =>
      rw [given] at source
      rw [taken] at target
      cases source
      cases target
      rw [CanvasNode.attributesText_of_isBound _ kind] at stands
      cases stands
      exact ⟨_, around, filled, nodes⟩

/-- Writing into a node that is no function, and dropping bodies, leaves what is no function as it
is, but for what is written. -/
theorem spare_only_of_other {around : List String} {id : String} {written : Attributes}
    (other : written.kind ≠ .functionDecl) (typed : node.content = .typed attributes)
    (other' : attributes.kind ≠ .functionDecl) :
    spare around (only id (·.holding (.typed written)) node) =
      only id (·.holding (.typed written)) node := by
  by_cases here : node.id == id
  · rw [only, if_pos here]
    exact spare_of_other around rfl other
  · rw [only, if_neg here]
    exact spare_of_other around typed other'

/-- The source of a connection keeps its kind and name: it holds what it held, or what was written
into it, if it is the target as well. -/
theorem source_of_filled {around : List String} {text handle : String} {written : Attributes}
    (filled : into.Filled text handle written) (first : graph.node? edge.source = some source)
    (second : graph.node? edge.target = some target)
    (given : source.content = .typed attributes) (plain : attributes.kind ≠ .functionDecl)
    (taken : target.content = .typed into) (other : into.kind ≠ .functionDecl) :
    ∃ attributes', (spare around (only target.id (·.holding (.typed written)) source)).content =
        .typed attributes' ∧
      attributes'.kind = attributes.kind ∧ attributes'.name? = attributes.name? := by
  rw [spare_only_of_other (filled.kind.1 ▸ other) given plain, only]
  split
  · next same =>
    obtain rfl : source = target := by
      rw [← id_of_node? first, beq_iff_eq.mp same, id_of_node? second, second] at first
      exact (Option.some.inj first).symm
    rw [given] at taken
    cases taken
    exact ⟨written, rfl, filled.kind.1, filled.name?⟩
  · exact ⟨attributes, given, rfl, rfl⟩

/-- **Declared names**: in a graph of nodes with attributes, a connection of an expression to
anything but a function writes the name that the expression is bound to. If the expression has all
of its operands, its name is declared in the text of the graph exactly if the graph does not have
the parent of the expression. -/
theorem declared_of_connect (apart : graph.ids.Nodup)
    (typed : ∀ node ∈ graph.nodes, node.content.isTyped = true)
    (returns : graph.connect edge = (graph', .ok true))
    (first : graph.node? edge.source = some source) (second : graph.node? edge.target = some target)
    (given : source.content = .typed attributes) (kind : attributes.kind.isBound = true)
    (taken : target.content = .typed into) (other : into.kind ≠ .functionDecl) :
    (∃ written,
      into.Filled (materializedName source.toNode) (edge.targetHandle.getD "") written ∧
      graph'.node? edge.target = some (target.holding (.typed written))) ∧
    ∃ source' attributes', graph'.node? edge.source = some source' ∧
      source'.content = .typed attributes' ∧
      materializedName source'.toNode = materializedName source.toNode ∧
      (attributes'.isConnected = true → ∀ step, ∃ program,
        render step graph'.toNodes = .ok program ∧
          (program.Declares source'.toNode ↔
            ∀ parent ∈ source.parent, graph.hasNode parent = false)) := by
  obtain ⟨written, around, filled, nodes⟩ :=
    filled_of_connect returns first second given kind taken other
  let change (node : CanvasNode) : CanvasNode :=
    spare around (only target.id (·.holding (.typed written)) node)
  have ids : ∀ node, (change node).id = node.id := id_spare_only around target.id (.typed written)
  have parents : ∀ node, (change node).parent = node.parent :=
    parent_spare_only around target.id (.typed written)
  have looked (id : String) : graph'.node? id = (graph.node? id).map change :=
    node?_map nodes ids id
  have plain : attributes.kind ≠ .functionDecl := by
    intro function
    rw [function] at kind
    cases kind
  have shown : change target = target.holding (.typed written) := by
    show spare around (only target.id (·.holding (.typed written)) target) = _
    rw [only, if_pos (beq_self_eq_true _)]
    exact spare_of_other around rfl (filled.kind.1 ▸ other)
  obtain ⟨attributes', holds, kind', named⟩ :=
    source_of_filled filled first second given plain taken other
  have name : materializedName (change source).toNode = materializedName source.toNode := by
    rw [materializedName_of_typed holds, materializedName_of_typed given, kind', named, ids]
  have typed' : ∀ node ∈ graph'.nodes, node.content.isTyped = true := by
    rw [nodes, List.forall_mem_map]
    exact fun node member => isTyped_spare_only around target.id written (typed node member)
  refine ⟨⟨written, filled, ?_⟩, change source, attributes', ?_, holds, name,
    fun connected step => ?_⟩
  · rw [looked, second, Option.map_some, shown]
  · rw [looked, first, Option.map_some]
  · obtain ⟨program, rendered⟩ := render_of_typed typed' step
    have apart' : graph'.ids.Nodup := ids_map nodes ids ▸ apart
    have member : change source ∈ graph'.nodes := by
      rw [nodes]
      exact List.mem_map_of_mem (List.mem_of_find?_eq_some first)
    refine ⟨program, rendered, ?_⟩
    rw [declares_iff apart' rendered member holds (kind' ▸ kind) connected, parents,
      hasNode_map nodes ids]

/-- An operation with all of its operands next to a node that shows a value, and a function. -/
def shownSum (parent : Option String) : Graph where
  nodes := [
    { id := "total", content := .typed (.functionDecl { name := "total" }) },
    { id := "sum", content := .typed (.binaryOp { left := some "1", right := some "2" }), parent },
    { id := "shown", content := .typed (.console {}) }]

/-- The edge by which the operation is shown. -/
def shownEdge : Edge :=
  { id := "edge", source := "sum", target := "shown", targetHandle := some "value" }

/-- At the top level the operation is declared under the name that is shown. -/
theorem declared_of_connect_shownSum :
    ∃ graph' source' program, (shownSum none).connect shownEdge = (graph', .ok true) ∧
      graph'.node? "sum" = some source' ∧ materializedName source'.toNode = "bin_sum" ∧
      render 2 graph'.toNodes = .ok program ∧ program.Declares source'.toNode := by
  let source : CanvasNode :=
    { id := "sum", content := .typed (.binaryOp { left := some "1", right := some "2" }) }
  have returns : (shownSum none).connect shownEdge = (_, .ok true) := rfl
  have first : (shownSum none).node? "sum" = some source := rfl
  obtain ⟨-, source', attributes', found, holds, name, declared⟩ :=
    declared_of_connect (show (shownSum none).ids.Nodup by decide) (by decide) returns first rfl rfl
      rfl rfl (by decide)
  cases found
  cases holds
  obtain ⟨program, rendered, declares⟩ := declared rfl 2
  have made : materializedName source.toNode = "bin_sum" := by decide +kernel
  exact ⟨_, _, program, returns, rfl, name.trans made, rendered, declares.mpr nofun⟩

/-- Below the function it is not declared, though it has its operands and its name is shown. -/
theorem not_declared_shownSum :
    ∃ graph' source' attributes' shown program,
      (shownSum (some "total")).connect shownEdge = (graph', .ok true) ∧
      graph'.node? "sum" = some source' ∧ source'.content = .typed attributes' ∧
      attributes'.isConnected = true ∧ graph'.node? "shown" = some shown ∧
      shown.content = .typed (.console { value := some (materializedName source'.toNode) }) ∧
      render 2 graph'.toNodes = .ok program ∧ ¬program.Declares source'.toNode ∧
      ¬"export const bin_sum".toList <:+: program.text.toList := by
  refine ⟨_, _, _, _, _, rfl, rfl, rfl, rfl, rfl, rfl, rfl, ?_, by decide +kernel⟩
  rintro ⟨span, expression, found, -⟩
  cases found

end Graph

end SourceCanvas
