import SourceCanvas.Proofs.ReadingBack

/-!
# Connecting

An edge takes the place of those with its id, and does one thing more at most: an operation comes to
lie below the function that returns it, a call takes over the name and the parameters of what it
calls, or a text is written in the one place that the handle names (`CanvasNode.Connects`). All else
stays, except for captured bodies on the way up from the target. `Graph.redrawn_connect` says so, and
says which of these bodies go: those of functions with attributes, if they are not empty and no id on
the way to them is empty.
-/

namespace SourceCanvas

open Text (given? nonempty?)

/-! ## What a handle names -/

/-- Attributes with a text in the one place that a handle names. Arguments that are missing before
the place are undefined. -/
inductive Attributes.Filled (text : String) : String → Attributes → Attributes → Prop
  | initializer (a : VariableAttributes) :
    Filled text "value" (.variableDecl a) (.variableDecl { a with initializer := some text })
  | declaredType (a : VariableAttributes) :
    Filled text "type" (.variableDecl a) (.variableDecl { a with declaredType := some text })
  | shown (a : ConsoleAttributes) :
    Filled text "value" (.console a) (.console { a with value := some text })
  | left (a : BinaryOpAttributes) :
    Filled text "lhs" (.binaryOp a) (.binaryOp { a with left := some text })
  | right (a : BinaryOpAttributes) :
    Filled text "rhs" (.binaryOp a) (.binaryOp { a with right := some text })
  | object (a : PropertyAccessAttributes) :
    Filled text "obj" (.propertyAccess a) (.propertyAccess { a with object := some text })
  | test (a : ConditionalAttributes) :
    Filled text "test" (.conditional a) (.conditional { a with test := some text })
  | whenTrue (a : ConditionalAttributes) :
    Filled text "whenTrue" (.conditional a) (.conditional { a with whenTrue := some text })
  | whenFalse (a : ConditionalAttributes) :
    Filled text "whenFalse" (.conditional a) (.conditional { a with whenFalse := some text })
  | argument {a : CallAttributes} {handle : String} {digits : List Char} {place : Nat}
    {args : List String} (named : handle.toList = "arg".toList ++ digits)
    (number : handleIndex digits = .ok (some place)) (slot : args[place]? = some text)
    (others : ∀ other, other ≠ place → args[other]? =
      a.args[other]?.or (if other < place then some "undefined" else none)) :
    Filled text handle (.call a) (.call { a with args })
  | property {a : ObjectAttributes} {handle : String} {digits : List Char} {place : Nat}
    {property : Property} (named : handle.toList = "prop-".toList ++ digits)
    (number : handleIndex digits = .ok (some place))
    (slot : a.properties[place]? = some property) :
    Filled text handle (.object a) (.object { a with
      properties := a.properties.set place { property with value := some text } })

theorem Attributes.Filled.kind {text handle : String} {before after : Attributes}
    (filled : Filled text handle before after) :
    after.kind = before.kind ∧ before.kind ≠ .functionDecl := by
  cases filled <;> exact ⟨rfl, nofun⟩

theorem handleSuffix?_iff {beginning handle : String} {suffix : List Char} :
    handleSuffix? beginning handle = some suffix ↔
      handle.toList = beginning.toList ++ suffix := by
  rw [handleSuffix?]
  constructor
  · intro found
    split at found
    · next starts =>
      cases found
      obtain ⟨rest, same⟩ := List.isPrefixOf_iff_prefix.mp starts
      rw [← same, ← String.length_toList, List.drop_left]
    · cases found
  · intro same
    rw [same, if_pos (List.isPrefixOf_iff_prefix.mpr ⟨suffix, rfl⟩), ← String.length_toList,
      List.drop_left]

theorem getElem?_writeArgument_self (args : List String) (place : Nat) (text : String) :
    (writeArgument args place text)[place]? = some text := by
  rw [writeArgument, List.getElem?_set_self]
  rw [List.length_append, List.length_replicate]
  omega

theorem getElem?_writeArgument_ne {place other : Nat} (args : List String) (text : String)
    (apart : other ≠ place) : (writeArgument args place text)[other]? =
      args[other]?.or (if other < place then some "undefined" else none) := by
  rw [writeArgument, List.getElem?_set_ne (Ne.symm apart), List.getElem?_append]
  split
  · next known => rw [List.getElem?_eq_getElem known, Option.some_or]
  · next missing =>
    have within : (other - args.length < place + 1 - args.length) = (other < place) :=
      propext (by omega)
    rw [List.getElem?_eq_none (Nat.le_of_not_lt missing), Option.none_or, List.getElem?_replicate]
    simp only [within]

theorem CallAttributes.filled_of_writeHandle {call written : CallAttributes} {handle text : String}
    (writes : call.writeHandle handle text = .ok (some written)) :
    Attributes.Filled text handle (.call call) (.call written) := by
  rw [writeHandle] at writes
  cases start : handleSuffix? "arg" handle with
  | none =>
    rw [start] at writes
    cases writes
  | some digits =>
    rw [start] at writes
    cases number : handleIndex digits with
    | error fault =>
      simp only [number] at writes
      cases writes
    | ok place =>
      simp only [number] at writes
      cases place with
      | none => cases writes
      | some place =>
        cases writes
        exact .argument (handleSuffix?_iff.mp start) number
          (getElem?_writeArgument_self _ _ _)
          fun other apart => getElem?_writeArgument_ne _ _ apart

theorem ObjectAttributes.filled_of_writeHandle {object written : ObjectAttributes}
    {handle text : String} (writes : object.writeHandle handle text = .ok (some written)) :
    Attributes.Filled text handle (.object object) (.object written) := by
  rw [writeHandle] at writes
  cases start : handleSuffix? "prop-" handle with
  | none =>
    rw [start] at writes
    cases writes
  | some digits =>
    rw [start] at writes
    cases number : handleIndex digits with
    | error fault =>
      simp only [number] at writes
      cases writes
    | ok place =>
      simp only [number] at writes
      cases place with
      | none => cases writes
      | some place =>
        simp only [bind, Except.bind] at writes
        cases found : object.properties[place]? with
        | none =>
          rw [found] at writes
          cases writes
        | some property =>
          rw [found] at writes
          cases writes
          exact .property (handleSuffix?_iff.mp start) number found

/-- What is written where a handle says is written there only. -/
theorem Attributes.filled_of_writeHandle {attributes written : Attributes} {handle text : String}
    (writes : attributes.writeHandle handle text = .ok (some written)) :
    Filled text handle attributes written := by
  unfold Attributes.writeHandle at writes
  split at writes
  case h_9 =>
    obtain ⟨written, found, rfl⟩ := of_map_eq_ok_some writes
    exact CallAttributes.filled_of_writeHandle found
  case h_10 =>
    obtain ⟨written, found, rfl⟩ := of_map_eq_ok_some writes
    exact ObjectAttributes.filled_of_writeHandle found
  case h_11 => cases writes
  all_goals
    cases writes
    constructor

/-! ## What an edge does -/

/-- What an edge into a handle does, as a change of nodes. -/
inductive CanvasNode.Connects (source target : CanvasNode) (handle : String) :
    (CanvasNode → CanvasNode) → Prop
  /-- an operation comes to lie below the function that returns it -/
  | adopt {operation : BinaryOpAttributes} {function : FunctionAttributes}
    (given : source.content = .typed (.binaryOp operation))
    (taken : target.content = .typed (.functionDecl function)) (named : handle = "return")
    (moved : source.parent ≠ some target.id) :
    Connects source target handle (Graph.only source.id (·.below target.id))
  /-- a call takes over the name and the parameters of what it calls -/
  | refer {from_ : Attributes} {call : CallAttributes} {name : String} {expected : List String}
    (given : source.content = .typed from_) (taken : target.content = .typed (.call call))
    (named : handle = "func") (signature : from_.signature? = some (name, expected)) :
    Connects source target handle (Graph.only target.id
      (·.holding (.typed (.call { call with function := some name, expected, args := [] }))))
  /-- the text of the source is written into the target -/
  | fill {from_ into written : Attributes} {text : String} (given : source.content = .typed from_)
    (taken : target.content = .typed into) (stands : source.attributesText from_ = some text)
    (filled : into.Filled text handle written) :
    Connects source target handle (Graph.only target.id (·.holding (.typed written)))

theorem connects_of_effect {source target : CanvasNode} {from_ into : Attributes} {handle : String}
    {does : Effect} (given : source.content = .typed from_) (taken : target.content = .typed into)
    (found : effect source target from_ into handle = .ok (some does)) :
    ∃ change, source.Connects target handle change ∧
      ∀ graph : Graph, (graph.applyEffect source.id target.id does).nodes =
        graph.nodes.map change := by
  unfold effect at found
  -- functions, calls that are given what they call, variables that are given a type, and the rest
  split at found
  · split at found
    · next held =>
      cases found
      obtain ⟨⟨named, operation⟩, moved⟩ :
          (handle = "return" ∧ from_.kind = .binaryOp) ∧ source.parent ≠ some target.id := by
        simpa using held
      cases from_ <;> cases operation
      exact ⟨_, .adopt given taken named moved, fun _ => rfl⟩
    · cases found
  · obtain ⟨⟨name, expected⟩, signature, rfl⟩ := Option.map_eq_some_iff.mp (Except.ok.inj found)
    exact ⟨_, .refer given taken rfl signature, fun _ => rfl⟩
  · split at found
    · obtain ⟨name, stands, rfl⟩ := Option.map_eq_some_iff.mp (Except.ok.inj found)
      exact ⟨_, .fill given taken stands (.declaredType _), fun _ => rfl⟩
    · cases found
  · split at found
    · cases found
    · next text stands =>
      obtain ⟨written, writes, rfl⟩ := of_map_eq_ok_some found
      exact ⟨_, .fill given taken stands (Attributes.filled_of_writeHandle writes), fun _ => rfl⟩

namespace Graph

variable {graph graph' : Graph} {edge : Edge} {id : String}

/-- Whether both ends of an edge are there. -/
def hasEnds (graph : Graph) (edge : Edge) : Bool :=
  graph.hasNode edge.source && graph.hasNode edge.target

/-- All that can come of drawing an edge. -/
inductive Connection (graph : Graph) (edge : Edge) : Graph × Except Fault Bool → Prop
  /-- an end is missing -/
  | refused (ends : graph.hasEnds edge = false) : Connection graph edge (graph, .ok false)
  /-- the edge says nothing -/
  | idle (ends : graph.hasEnds edge = true) :
    Connection graph edge (graph.withEdge edge, .ok false)
  /-- the handle cannot be read -/
  | stuck {source target : CanvasNode} {from_ into : Attributes} {fault : Fault}
    (ends : graph.hasEnds edge = true)
    (first : graph.node? edge.source = some source) (second : graph.node? edge.target = some target)
    (given : source.content = .typed from_) (taken : target.content = .typed into)
    (fails : effect source target from_ into (edge.targetHandle.getD "") = .error fault) :
    Connection graph edge (graph.withEdge edge, .error fault)
  /-- the edge does something -/
  | made {source target : CanvasNode} {from_ into : Attributes} {does : Effect}
    (ends : graph.hasEnds edge = true)
    (first : graph.node? edge.source = some source) (second : graph.node? edge.target = some target)
    (given : source.content = .typed from_) (taken : target.content = .typed into)
    (found : effect source target from_ into (edge.targetHandle.getD "") = .ok (some does)) :
    Connection graph edge
      (((graph.withEdge edge).applyEffect edge.source edge.target does).dropBodies
        (some edge.target), .ok true)

theorem connection (graph : Graph) (edge : Edge) : graph.Connection edge (graph.connect edge) := by
  rw [connect, addEdge?]
  cases ends : graph.hasEnds edge with
  | false =>
    rw [if_neg (by rw [← hasEnds, ends]; exact Bool.false_ne_true)]
    exact .refused ends
  | true =>
    rw [if_pos (by rw [← hasEnds, ends])]
    dsimp only
    split
    · next source target first second =>
      split
      · next from_ into given taken =>
        split
        · next fault fails => exact .stuck ends first second given taken fails
        · exact .idle ends
        · next does found => exact .made ends first second given taken found
      · exact .idle ends
    · exact .idle ends

end Graph

/-! ## What an edge leaves as it was -/

/-- A node without the captured body among its attributes. -/
def CanvasNode.bodiless (node : CanvasNode) : CanvasNode :=
  match node.content with
  | .typed (.functionDecl function) =>
    node.holding (.typed (.functionDecl { function with body := none }))
  | _ => node

/-- The captured text that a function is written with. It may also stand in a payload. -/
def CanvasNode.captured? (node : CanvasNode) : Option String :=
  match node.attributes? with
  | .ok (some (.functionDecl function)) => function.body
  | _ => none

namespace CanvasNode

variable {node : CanvasNode}

/-- Dropping the body of a node either takes it away or leaves the node as it is. -/
theorem withoutBody_cases (node : CanvasNode) :
    node.withoutBody = node ∨ node.withoutBody = node.bodiless := by
  obtain ⟨⟨id, content, parent, span⟩, position⟩ := node
  cases content with
  | raw kind payload => exact .inl rfl
  | typed attributes =>
    cases attributes with
    | functionDecl function =>
      obtain ⟨name, parameters, returnType, isAsync, body⟩ := function
      cases body with
      | none => exact .inl rfl
      | some body =>
        -- an empty body is not taken for a body, and stays
        by_cases empty : body = ""
        · subst empty
          exact .inl rfl
        · refine .inr ?_
          simp [withoutBody, bodiless, holding, empty]
    | _ => exact .inl rfl

theorem captured?_withoutBody (node : CanvasNode) : node.withoutBody.captured? =
    if node.isFunction then node.captured?.filter (· = "") else node.captured? := by
  obtain ⟨⟨id, content, parent, span⟩, position⟩ := node
  cases content with
  | raw kind payload => rfl
  | typed attributes => cases attributes <;> rfl

/-- Only functions have captured bodies. -/
theorem captured?_of_typed {attributes : Attributes} (typed : node.content = .typed attributes)
    (other : attributes.kind ≠ .functionDecl) : node.captured? = none ∧ node.isFunction = false := by
  rw [captured?, isFunction, Node.attributes?, typed]
  cases attributes with
  | functionDecl => exact absurd rfl other
  | _ => exact ⟨rfl, rfl⟩

end CanvasNode

namespace Graph

variable {graph graph' : Graph} {edge : Edge} {id : String} {node source target : CanvasNode}
  {handle : String} {change : CanvasNode → CanvasNode}

theorem id_of_connects (connects : source.Connects target handle change) (node : CanvasNode) :
    (change node).id = node.id := by
  cases connects with
  | adopt | refer | fill =>
    rw [only]
    split <;> rfl

/-- Nodes that are alike up to their attributes and their parents, and have the same body. -/
structure Alike (node node' : CanvasNode) : Prop where
  id : node'.id = node.id
  kind : node'.kindName = node.kindName
  position : node'.position = node.position
  span : node'.span = node.span
  captured : node'.captured? = node.captured?
  callable : node'.isFunction = node.isFunction

theorem alike_only_holding {into written : Attributes} (apart : graph.ids.Nodup)
    (second : graph.node? target.id = some target) (taken : target.content = .typed into)
    (kind : written.kind = into.kind) (other : into.kind ≠ .functionDecl)
    (member : node ∈ graph.nodes) :
    Alike node (only target.id (·.holding (.typed written)) node) := by
  rw [only]
  split
  · next same =>
    -- ids are apart, so the node into which the content is written is the target itself
    have found := node?_of_mem apart member
    rw [beq_iff_eq.mp same, second] at found
    cases found
    obtain ⟨before, callable⟩ := CanvasNode.captured?_of_typed taken other
    obtain ⟨after, callable'⟩ := CanvasNode.captured?_of_typed
      (show (node.holding (.typed written)).content = .typed written from rfl) (kind ▸ other)
    refine ⟨rfl, ?_, rfl, rfl, after.trans before.symm, callable'.trans callable.symm⟩
    rw [Node.kindName, Node.kindName, taken]
    exact congrArg NodeKind.name kind
  · exact ⟨rfl, rfl, rfl, rfl, rfl, rfl⟩

/-- What an edge does to a node keeps it alike. -/
theorem alike_of_connects (apart : graph.ids.Nodup) (second : graph.node? target.id = some target)
    (connects : source.Connects target handle change) (member : node ∈ graph.nodes) :
    Alike node (change node) := by
  cases connects with
  | adopt =>
    rw [only]
    split <;> exact ⟨rfl, rfl, rfl, rfl, rfl, rfl⟩
  | refer given taken =>
    have other : NodeKind.call ≠ .functionDecl := by decide
    exact alike_only_holding apart second taken rfl other member
  | fill given taken stands filled =>
    exact alike_only_holding apart second taken filled.kind.1 filled.kind.2 member

/-! ## The way up -/

/-- A node has another one as its parent, under whatever id. -/
def HasParent (graph : Graph) (child parent : String) : Prop :=
  ∃ node, graph.node? child = some node ∧ node.parent = some parent ∧ graph.hasNode parent = true

/-- A node is another one or lies below it, under whatever ids. -/
def Within (graph : Graph) : String → String → Prop := Relation.ReflTransGen graph.HasParent

/-- A node is another one or lies below it, and no id on the way is empty. -/
def Climbs (graph : Graph) (inner outer : String) : Prop :=
  inner ≠ "" ∧ Relation.ReflTransGen graph.Under inner outer

theorem hasParent_of_under {child parent : String} (under : graph.Under child parent) :
    graph.HasParent child parent := by
  obtain ⟨node, found, above⟩ := under
  obtain ⟨parent, upper, rfl⟩ := Option.map_eq_some_iff.mp above
  have there := node?_parentOf? upper
  obtain ⟨id, given, first⟩ := Option.bind_eq_some_iff.mp upper
  rw [← id_of_node? first] at given
  exact ⟨node, found, (Text.given?_eq_some.mp given).1, hasNode_of_node? there⟩

theorem Climbs.within {inner outer : String} (climbs : graph.Climbs inner outer) :
    graph.Within inner outer :=
  climbs.2.lift (fun id => id) fun _ _ => hasParent_of_under

/-- The nodes whose bodies are dropped are those up from the target by ids that are not empty. -/
theorem mem_around_iff (known : (graph.node? id).isSome = true) {outer : String} :
    outer ∈ graph.around (some id) ↔ graph.Climbs id outer := by
  rw [around, Climbs]
  by_cases empty : id = ""
  · simp [empty, given?, nonempty?, GraphEdit.enclosing_none]
  · rw [Text.given?_eq_some.mpr ⟨rfl, empty⟩, Option.bind_some, mem_enclosing_iff known]
    exact ⟨fun up => ⟨empty, up⟩, And.right⟩

/-! ## Connections that return -/

/-- What is left of a graph once an edge is drawn: the edge in the place of those with its id, and
where it changes something, that one change, next to bodies that are gone on the way up from its
target. -/
structure Redrawn (graph : Graph) (edge : Edge) (graph' : Graph) (changed : Bool) : Prop where
  refused : graph.hasEnds edge = false → graph' = graph ∧ changed = false
  edges : graph.hasEnds edge = true →
    graph'.edges = graph.edges.filter (·.id != edge.id) ++ [edge]
  kept : changed = false → graph'.nodes = graph.nodes
  shape : graph'.nodes.map (fun node => (node.id, node.kindName, node.position, node.span)) =
    graph.nodes.map fun node => (node.id, node.kindName, node.position, node.span)
  changed : changed = true → ∃ source target change,
    graph.node? edge.source = some source ∧ graph.node? edge.target = some target ∧
      source.Connects target (edge.targetHandle.getD "") change ∧
      List.Forall₂ (fun node node' => node' = change node ∨
          graph'.Within edge.target node.id ∧ node' = (change node).bodiless)
        graph.nodes graph'.nodes

/-- No function on the way up from a node, as the graph has it, shows a captured body. -/
def Cleared (graph : Graph) (id : String) : Prop :=
  ∀ function ∈ graph.nodes, graph.Within id function.id → function.captured? = none

/-- What becomes of the nodes of a graph in which an edge does something. -/
theorem nodes_of_made {does : Effect} {from_ into : Attributes}
    (first : graph.node? edge.source = some source) (second : graph.node? edge.target = some target)
    (given : source.content = .typed from_) (taken : target.content = .typed into)
    (found : effect source target from_ into (edge.targetHandle.getD "") = .ok (some does))
    (made : graph' = ((graph.withEdge edge).applyEffect edge.source edge.target does).dropBodies
      (some edge.target)) :
    ∃ change around, source.Connects target (edge.targetHandle.getD "") change ∧
      graph'.nodes = graph.nodes.map (fun node => spare around (change node)) ∧
      ∀ outer, outer ∈ around ↔ graph'.Climbs edge.target outer := by
  obtain ⟨change, connects, applied⟩ := connects_of_effect given taken found
  rw [id_of_node? first, id_of_node? second] at applied
  let after := (graph.withEdge edge).applyEffect edge.source edge.target does
  have nodes : after.nodes = graph.nodes.map change := applied (graph.withEdge edge)
  have dropped : graph'.nodes = after.nodes.map (spare (after.around (some edge.target))) := by
    rw [made]
    rfl
  -- dropping bodies moves no node, so the way up that the bodies were dropped on is still there
  have under : graph'.Under = after.Under :=
    under_map dropped (id_spare _) (parent_spare _)
  have known : (after.node? edge.target).isSome = true := by
    rw [node?_map nodes (id_of_connects connects), second]
    rfl
  refine ⟨change, after.around (some edge.target), connects, ?_, fun outer => ?_⟩
  · rw [dropped, nodes, List.map_map]
    rfl
  · rw [mem_around_iff known, Climbs, Climbs, under]

theorem captured?_spare (around : List String) (node : CanvasNode) :
    (spare around node).captured? = if node.id ∈ around ∧ node.isFunction = true
      then node.captured?.filter (· = "") else node.captured? := by
  rw [spare]
  by_cases held : node.id ∈ around
  · rw [if_pos (List.contains_iff_mem.mpr held), CanvasNode.captured?_withoutBody]
    simp [held]
  · rw [if_neg (fun known => held (List.contains_iff_mem.mp known)), if_neg fun both => held both.1]

theorem shape_spare (around : List String) (node : CanvasNode) :
    ((spare around node).id, (spare around node).kindName, (spare around node).position,
      (spare around node).span) = (node.id, node.kindName, node.position, node.span) := by
  rw [id_spare, kindName_spare]
  rcases spare_cases around node with same | same
  · rw [same]
  · rw [same, CanvasNode.withoutBody_eq]
    rfl

/-- Where bodies are dropped on the way up, those are gone that belong to attributes, are not empty
and are reached. -/
theorem cleared_iff {around : List String} {target : String}
    (nodes : graph'.nodes = graph.nodes.map fun node => spare around (change node))
    (alike : ∀ node ∈ graph.nodes, Alike node (change node))
    (reached : ∀ outer, outer ∈ around ↔ graph'.Climbs target outer) :
    graph'.Cleared target ↔ ∀ function ∈ graph.nodes, graph'.Within target function.id →
      function.captured? = none ∨ function.isFunction = true ∧ function.captured? ≠ some "" ∧
        graph'.Climbs target function.id := by
  have each {node : CanvasNode} (member : node ∈ graph.nodes) :
      (spare around (change node)).captured? = none ↔ node.captured? = none ∨
        node.isFunction = true ∧ node.captured? ≠ some "" ∧ graph'.Climbs target node.id := by
    have same := alike node member
    rw [captured?_spare, same.id, same.captured, same.callable, ← reached]
    by_cases dropped : node.id ∈ around ∧ node.isFunction = true
    · rw [if_pos dropped, Session.filter_empty_eq_none]
      constructor
      · exact fun filled => .inr ⟨dropped.2, filled, dropped.1⟩
      · rintro (none | ⟨-, filled, -⟩)
        · rw [none]
          nofun
        · exact filled
    · rw [if_neg dropped]
      exact ⟨.inl, fun held => held.resolve_right fun held => dropped ⟨held.2.2, held.1⟩⟩
  rw [Cleared, nodes, List.forall_mem_map]
  refine forall₂_congr fun node member => ?_
  rw [id_spare, (alike node member).id, each member]

/-- A connection that returns leaves the nodes and edges as it should, except for captured bodies;
and these are gone on the way up from the target exactly if all of them belong to attributes, none is
empty, and they are reached by ids that are not empty. -/
theorem redrawn_connect {changed : Bool} (apart : graph.ids.Nodup)
    (returns : graph.connect edge = (graph', .ok changed)) :
    graph.Redrawn edge graph' changed ∧
      (changed = true → (graph'.Cleared edge.target ↔
        ∀ function ∈ graph.nodes, graph'.Within edge.target function.id →
          function.captured? = none ∨ function.isFunction = true ∧
            function.captured? ≠ some "" ∧ graph'.Climbs edge.target function.id)) := by
  have connection := graph.connection edge
  rw [returns] at connection
  cases connection with
  | refused ends =>
    refine ⟨⟨fun _ => ⟨rfl, rfl⟩, fun ends' => ?_, fun _ => rfl, rfl, nofun⟩, nofun⟩
    rw [ends] at ends'
    cases ends'
  | idle ends =>
    refine ⟨⟨fun ends' => ?_, fun _ => rfl, fun _ => rfl, rfl, nofun⟩, nofun⟩
    rw [ends] at ends'
    cases ends'
  | @made source target from_ into does ends first second given taken found =>
    obtain ⟨change, around, connects, nodes, reached⟩ :=
      nodes_of_made first second given taken found rfl
    have alike : ∀ node ∈ graph.nodes, Alike node (change node) := fun node member =>
      alike_of_connects apart ((id_of_node? second).symm ▸ second) connects member
    refine ⟨⟨fun ends' => ?_, fun _ => ?_, nofun, ?_, fun _ => ⟨source, target, change, first, second,
      connects, ?_⟩⟩, fun _ => ?_⟩
    · rw [ends] at ends'
      cases ends'
    · cases does <;> rfl
    · rw [nodes, List.map_map]
      refine List.map_congr_left fun node member => (shape_spare _ _).trans ?_
      have same := alike node member
      rw [same.id, same.kind, same.position, same.span]
    · rw [nodes, List.forall₂_map_right_iff, List.forall₂_same]
      intro node member
      rw [spare]
      split
      · next held =>
        rw [List.contains_iff_mem, (alike node member).id, reached] at held
        exact (change node).withoutBody_cases.imp_right fun gone => ⟨held.within, gone⟩
      · exact .inl rfl
    · exact cleared_iff nodes alike reached

/-- An operation next to a function with a captured body. -/
def returning (id : String) : Graph where
  nodes := [
    { id, content := .typed (.functionDecl { name := "total", body := some "return a;" }) },
    { id := "sum", content := .typed (.binaryOp { left := some "1", right := some "2" }) }]

/-- The edge by which the function returns the operation. -/
def returned (id : String) : Edge :=
  { id := "edge", source := "sum", target := id, targetHandle := some "return" }

/-- The function loses its body when it comes to return the operation. -/
theorem redrawn_returning : ∃ graph',
    (returning "total").connect (returned "total") = (graph', .ok true) ∧
      (returning "total").Redrawn (returned "total") graph' true ∧ graph'.Cleared "total" := by
  obtain ⟨redrawn, cleared⟩ := redrawn_connect
    (show (returning "total").ids.Nodup by decide)
    (show (returning "total").connect (returned "total") = (_, .ok true) from rfl)
  refine ⟨_, rfl, redrawn, (cleared rfl).mpr fun function member within => ?_⟩
  simp only [returning, List.mem_cons, List.not_mem_nil, or_false] at member
  rcases member with rfl | rfl
  · exact .inr ⟨rfl, by decide, by decide, .refl⟩
  · exact .inl rfl

/-- A function without an id keeps its body, though it comes to return the operation. -/
theorem not_cleared_returning : (returning "").ids.Nodup ∧ ∃ graph',
    (returning "").connect (returned "") = (graph', .ok true) ∧ ¬graph'.Cleared "" := by
  refine ⟨by decide, _, rfl, fun cleared => ?_⟩
  have none := cleared _ (List.mem_cons_self ..) .refl
  cases none

end Graph

end SourceCanvas
