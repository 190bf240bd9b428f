import SourceCanvas.Proofs.BodyLaws

/-!
# Reading back what was written into a node

A text shows the nodes at the top level and, of the functions among them, the nodes directly below.
What is written into a node further down is in the graph, but not in the text: not even the captured
texts around the node are made anew (`Program.render_hidden`). So what is read back in its place does
not depend on what was written (`Session.readBack_hidden`).
-/

namespace SourceCanvas

open Text (given?)

/-! ## Rendering -/

/-- A list of nodes in which those with an id hold another content. -/
def Node.rewriting (id : String) (content : Content) (node : Node) : Node :=
  if node.id = id then { node with content } else node

/-- Whether a node is written with what lies below it, as functions are. -/
def Node.showsBelow (node : Node) : Bool :=
  match node.attributes? with
  | .ok (some (.functionDecl _)) => true
  | _ => false

/-- A list shows nothing of the nodes with an id: they lie below others, and not directly below a
function at the top level. -/
def HiddenIn (nodes : List Node) (id : String) : Prop :=
  ∀ child ∈ nodes, child.id = id → child.isTopLevel = false ∧
    ∀ outer ∈ nodes, child.parent = some outer.id → outer.isTopLevel = true →
      outer.showsBelow = false

namespace Program

variable {step : Nat} {nodes : List Node} {node : Node} {id : String}

/-- Only functions are written with what lies below them. -/
theorem block_of_not_showsBelow (step : Nat) (children children' : List Node)
    (other : node.showsBelow = false) : node.block step children = node.block step children' := by
  rw [Node.showsBelow] at other
  rw [Node.block, Node.block]
  cases read : node.attributes? with
  | error fault => rfl
  | ok attributes =>
    cases attributes with
    | none => rfl
    | some attributes =>
      cases attributes with
      | functionDecl function =>
        rw [read] at other
        cases other
      | _ => rfl

theorem mapM_congr {α β : Type} {items : List α} {f g : α → Except Fault β}
    (same : ∀ item ∈ items, f item = g item) : items.mapM f = items.mapM g := by
  induction items with
  | nil => rfl
  | cons item rest ih =>
    obtain ⟨first, later⟩ := List.forall_mem_cons.mp same
    rw [List.mapM_cons, List.mapM_cons, first, ih later]

theorem parent_rewriting (id : String) (content : Content) (node : Node) :
    (node.rewriting id content).parent = node.parent := by
  rw [Node.rewriting]
  split <;> rfl

theorem childrenOf_rewriting (nodes : List Node) (id : String) (content : Content)
    (parent : String) : childrenOf (nodes.map (Node.rewriting id content)) parent =
      (childrenOf nodes parent).map (Node.rewriting id content) := by
  rw [childrenOf, List.filter_map]
  refine congrArg (List.map _) (List.filter_congr fun node _ => ?_)
  rw [Function.comp, parent_rewriting]

theorem map_rewriting {id : String} {nodes : List Node} (content : Content)
    (others : ∀ node ∈ nodes, node.id ≠ id) : nodes.map (Node.rewriting id content) = nodes :=
  (List.map_congr_left fun node member => if_neg (others node member)).trans (List.map_id nodes)

/-- A text does not show what hidden nodes hold. -/
theorem render_hidden (step : Nat) (hidden : HiddenIn nodes id) (content : Content) :
    render step (nodes.map (Node.rewriting id content)) = render step nodes := by
  have sameTop : Node.isTopLevel ∘ Node.rewriting id content = Node.isTopLevel := by
    funext node
    rw [Function.comp, Node.isTopLevel, parent_rewriting]
    rfl
  have shown : ∀ node ∈ nodes.filter Node.isTopLevel, node.id ≠ id := by
    intro node member same
    obtain ⟨inside, top⟩ := List.mem_filter.mp member
    rw [(hidden node inside same).1] at top
    cases top
  have tops : (nodes.map (Node.rewriting id content)).filter Node.isTopLevel =
      nodes.filter Node.isTopLevel := by
    rw [List.filter_map, sameTop, map_rewriting content shown]
  have blocks : blocks step (nodes.map (Node.rewriting id content)) = blocks step nodes := by
    rw [blocks, blocks, tops]
    refine mapM_congr fun node member => ?_
    obtain ⟨inside, top⟩ := List.mem_filter.mp member
    have block : node.block step (childrenOf (nodes.map (Node.rewriting id content)) node.id) =
        node.block step (childrenOf nodes node.id) := by
      rw [childrenOf_rewriting]
      by_cases above : ∃ child ∈ childrenOf nodes node.id, child.id = id
      · obtain ⟨child, below, same⟩ := above
        obtain ⟨listed, named⟩ := List.mem_filter.mp below
        exact block_of_not_showsBelow step _ _
          ((hidden child listed same).2 node inside (by simpa using named) top)
      · rw [map_rewriting content fun child below same => above ⟨child, below, same⟩]
    rw [block]
  rw [render, render, blocks]

end Program

/-! ## Matching -/

/-- What fits the first elements of a list is what is paired with them. -/
theorem pairUp_map {α β γ : Type} (fits : α → β → Bool) (fits' : γ → β → Bool) (change : α → γ)
    {as : List α} (available : List β) (same : ∀ a ∈ as, fits' (change a) = fits a) :
    pairUp fits' (as.map change) available =
      (pairUp fits as available).map (Prod.map change id) := by
  induction as generalizing available with
  | nil => simp [pairUp]
  | cons a rest ih =>
    obtain ⟨first, later⟩ := List.forall_mem_cons.mp same
    rw [List.map_cons, pairUp, pairUp, first]
    split
    · rw [ih _ later]
      rfl
    · exact ih _ later

namespace Graph

variable {graph graph' : Graph} {parsed : List Node} {ranges : Catalog Span}
  {change : CanvasNode → CanvasNode}

section Changed

variable (nodes : graph'.nodes = graph.nodes.map change)
  (ids : ∀ node, (change node).id = node.id)
  (parents : ∀ node, (change node).parent = node.parent)
  (kinds : ∀ node ∈ graph.nodes, (change node).kindName = node.kindName)

include nodes ids in
theorem ids_map : graph'.ids = graph.ids := by
  rw [Graph.ids, nodes, List.map_map]
  exact List.map_congr_left fun node _ => ids node

include nodes parents in
theorem children_map (id : String) : graph'.children id = (graph.children id).map change := by
  rw [children, children, nodes, List.filter_map]
  refine congrArg (List.map change) (List.filter_congr fun node _ => ?_)
  rw [Function.comp, parents]

include nodes ids parents kinds

theorem matchBelow_map (fuel : Nat) {start : CanvasNode × Node} (member : start.1 ∈ graph.nodes) :
    graph'.matchBelow parsed fuel (change start.1, start.2) =
      (graph.matchBelow parsed fuel start).map (Prod.map change id) := by
  induction fuel generalizing start with
  | zero => rfl
  | succ fuel ih =>
    obtain ⟨node, construct⟩ := start
    have inside {pair : CanvasNode × Node} {available : List Node}
        (paired : pair ∈ pairUp (fun child candidate => candidate.kindName == child.kindName)
          (graph.children node.id) available) : pair.1 ∈ graph.nodes :=
      (List.mem_filter.mp (mem_of_mem_pairUp paired).1).1
    rw [matchBelow, matchBelow, ids, children_map nodes parents,
      pairUp_map (fun child candidate => candidate.kindName == child.kindName) _ change _
        fun child below => by rw [kinds child (List.mem_filter.mp below).1],
      List.map_cons, List.flatMap_map, List.map_flatMap]
    refine congrArg (List.cons _) (List.flatMap_congr fun pair paired => ?_)
    exact ih (inside paired)

theorem encounters_map : graph'.encounters parsed ranges =
    (graph.encounters parsed ranges).map (Prod.map change id) := by
  have sameFits : ∀ node ∈ graph.nodes, startsIn ranges (change node) = startsIn ranges node := by
    intro node member
    funext construct
    rw [startsIn, startsIn, ids, kinds node member]
  rw [encounters, encounters, nodes, pairUp_map (startsIn ranges) _ change _ sameFits,
    List.flatMap_map, List.map_flatMap]
  refine List.flatMap_congr fun pair paired => ?_
  exact matchBelow_map nodes ids parents kinds _ (mem_of_mem_pairUp paired).1

omit nodes parents kinds in
theorem latest_map (pairs : List (CanvasNode × Node)) :
    latest (pairs.map (Prod.map change id)) = (latest pairs).map (Prod.map change id) := by
  have one (pair : CanvasNode × Node) (found : List (CanvasNode × Node)) :
      insertPair (Prod.map change id pair) (found.map (Prod.map change id)) =
        (insertPair pair found).map (Prod.map change id) := by
    induction found with
    | nil => rfl
    | cons other rest ih =>
      rw [List.map_cons, insertPair, insertPair, Prod.map_fst, Prod.map_fst, ids, ids, ih]
      split <;> rfl
  have step (found : List (CanvasNode × Node)) :
      (pairs.map (Prod.map change id)).foldl (fun found pair => insertPair pair found)
          (found.map (Prod.map change id)) =
        (pairs.foldl (fun found pair => insertPair pair found) found).map (Prod.map change id) := by
    induction pairs generalizing found with
    | nil => rfl
    | cons pair rest ih => rw [List.map_cons, List.foldl_cons, one, ih, List.foldl_cons]
  exact step []

/-- Matching goes by ids, parents and kinds. -/
theorem matching_map : graph'.matching parsed ranges =
    (graph.matching parsed ranges).map (Prod.map change id) := by
  rw [matching, matching, encounters_map nodes ids parents kinds, latest_map ids]

/-- So do the new ids. -/
theorem newIds_map : graph'.newIds (graph'.matching parsed ranges) =
    graph.newIds (graph.matching parsed ranges) := by
  have moves (pairs : List (CanvasNode × Node)) :
      ((pairs.map (Prod.map change id)).filter fun pair => pair.1.id != pair.2.id).map
          (fun pair => (pair.1.id, pair.2.id)) =
        (pairs.filter fun pair => pair.1.id != pair.2.id).map
          fun pair => (pair.1.id, pair.2.id) := by
    rw [List.filter_map, List.map_map]
    have tested : (fun pair : CanvasNode × Node => pair.1.id != pair.2.id) ∘ Prod.map change id =
        fun pair => pair.1.id != pair.2.id := by
      funext pair
      rw [Function.comp, Prod.map_fst, Prod.map_snd, ids]
      rfl
    rw [tested]
    refine List.map_congr_left fun pair _ => ?_
    rw [Function.comp, Prod.map_fst, Prod.map_snd, ids]
    rfl
  rw [matching_map nodes ids parents kinds, newIds, newIds, moves, ids_map nodes ids]

end Changed

end Graph

/-! ## Written nodes -/

/-- A content without the body that it captured. -/
def Content.withoutBody : Content → Content
  | .typed (.functionDecl function) =>
    .typed (.functionDecl { function with body := function.body.filter (· = "") })
  | content => content

theorem Content.kindName_withoutBody (content : Content) :
    content.withoutBody.kindName = content.kindName := by
  cases content with
  | typed attributes => cases attributes <;> rfl
  | raw kind payload => rfl

theorem CanvasNode.withoutBody_eq (node : CanvasNode) :
    node.withoutBody = node.holding node.content.withoutBody := by
  obtain ⟨⟨id, content, parent, span⟩, position⟩ := node
  cases content with
  | typed attributes => cases attributes <;> rfl
  | raw kind payload => rfl

namespace Graph

variable {graph graph' : Graph} {change : CanvasNode → CanvasNode}

theorem enclosing_map (nodes : graph'.nodes = graph.nodes.map change)
    (ids : ∀ node, (change node).id = node.id)
    (parents : ∀ node, (change node).parent = node.parent) (fuel : Nat)
    (start : Option CanvasNode) :
    graph'.enclosing fuel (start.map change) = graph.enclosing fuel start := by
  induction fuel generalizing start with
  | zero => rfl
  | succ fuel ih =>
    cases start with
    | none => rfl
    | some node =>
      have above : graph'.parentOf? (change node) = (graph.parentOf? node).map change := by
        rw [parentOf?, parentOf?, parents]
        cases given? node.parent with
        | none => rfl
        | some id => exact node?_map nodes ids id
      rw [Option.map_some, enclosing, enclosing, ids, above, ih]

/-- The nodes around some node, if there is one with the id. -/
def around (graph : Graph) (start : Option String) : List String :=
  graph.enclosing graph.nodes.length ((given? start).bind graph.node?)

/-- A node without its body, if it is among those around another one. -/
def spare (around : List String) (node : CanvasNode) : CanvasNode :=
  if around.contains node.id then node.withoutBody else node

theorem hasNode_map (nodes : graph'.nodes = graph.nodes.map change)
    (ids : ∀ node, (change node).id = node.id) : graph'.hasNode = graph.hasNode := by
  funext id
  rw [hasNode, hasNode, nodes, List.any_map]
  exact congrArg (List.any graph.nodes) (funext fun node => by rw [Function.comp, ids])

/-- Changing nodes under their ids and parents leaves what is around what. -/
theorem around_map (nodes : graph'.nodes = graph.nodes.map change)
    (ids : ∀ node, (change node).id = node.id)
    (parents : ∀ node, (change node).parent = node.parent) (start : Option String) :
    graph'.around start = graph.around start := by
  have first : (given? start).bind graph'.node? =
      ((given? start).bind graph.node?).map change := by
    cases given? start with
    | none => rfl
    | some first => exact node?_map nodes ids first
  rw [around, around, first, nodes, List.length_map]
  exact enclosing_map nodes ids parents _ _

theorem parent_only (id : String) (content : Content) (node : CanvasNode) :
    (only id (·.holding content) node).parent = node.parent := by
  rw [only]
  split <;> rfl

/-- Writing into a node and dropping bodies, for all nodes at once. -/
theorem nodes_write (graph : Graph) (id : String) (content : Content) (start : Option String) :
    (((GraphEdit.write id content start).apply graph).dropBodies start).nodes =
      graph.nodes.map fun node =>
        spare (graph.around start) (only id (·.holding content) node) := by
  let after := graph.adjust id (·.holding content)
  have same : after.around start = graph.around start :=
    around_map rfl (id_only id (·.holding content) fun _ => rfl) (parent_only id content) start
  show (graph.nodes.map (only id (·.holding content))).map (spare (after.around start)) = _
  rw [same, List.map_map]
  rfl

/-- Writing something else into a node comes to the same graph with another content in one node. -/
theorem nodes_write_other (graph : Graph) (id : String) (content other : Content)
    (start : Option String) :
    (((GraphEdit.write id other start).apply graph).dropBodies start).nodes =
      (((GraphEdit.write id content start).apply graph).dropBodies start).nodes.map
        (only id (·.holding (if (graph.around start).contains id then other.withoutBody
          else other))) := by
  rw [nodes_write, nodes_write, List.map_map]
  refine List.map_congr_left fun node _ => ?_
  by_cases named : node.id = id
  · subst named
    have here : (node.id == node.id) = true := beq_self_eq_true _
    have written (content : Content) :
        only node.id (·.holding content) node = node.holding content := if_pos here
    have spared (content : Content) : spare (graph.around start) (node.holding content) =
        node.holding (if (graph.around start).contains node.id then content.withoutBody
          else content) := by
      rw [spare]
      show (if (graph.around start).contains node.id then _ else _) = _
      split
      · exact CanvasNode.withoutBody_eq _
      · rfl
    rw [Function.comp, written, written, spared, spared]
    exact (if_pos here).symm
  · have apart : ¬(node.id == id) = true := fun same => named (beq_iff_eq.mp same)
    have unwritten (content : Content) : only id (·.holding content) node = node := if_neg apart
    rw [Function.comp, unwritten, unwritten, only, if_neg]
    rw [spare]
    split
    · rw [id_withoutBody]
      exact apart
    · exact apart

/-! ## Hidden nodes -/

/-- A node of the graph is not shown by its text. -/
def Hidden (graph : Graph) (id : String) : Prop := HiddenIn graph.toNodes id

/-- A node as lists of nodes have it. -/
def listed (graph : Graph) (node : CanvasNode) : Node :=
  { node.toNode with parent := node.parent.filter graph.hasNode }

theorem toNodes_eq (graph : Graph) : graph.toNodes = graph.nodes.map graph.listed := rfl

theorem ids_toNodes (graph : Graph) : graph.toNodes.map Node.id = graph.ids := by
  rw [toNodes_eq, List.map_map]
  rfl

/-- A function without its captured body is a function, and nothing else becomes one. -/
theorem showsBelow_withoutBody (node : Node) :
    { node with content := node.content.withoutBody }.showsBelow = node.showsBelow := by
  obtain ⟨id, content, parent, span⟩ := node
  cases content with
  | typed attributes => cases attributes <;> rfl
  | raw kind payload => rfl

theorem spare_cases (around : List String) (node : CanvasNode) :
    spare around node = node ∨ spare around node = node.withoutBody := by
  rw [spare]
  split
  · exact .inr rfl
  · exact .inl rfl

theorem id_spare (around : List String) (node : CanvasNode) :
    (spare around node).id = node.id := by
  rcases spare_cases around node with same | same
  · rw [same]
  · rw [same, id_withoutBody]

theorem parent_spare (around : List String) (node : CanvasNode) :
    (spare around node).parent = node.parent := by
  rcases spare_cases around node with same | same
  · rw [same]
  · rw [same, CanvasNode.withoutBody_eq]
    rfl

theorem kindName_spare (around : List String) (node : CanvasNode) :
    (spare around node).kindName = node.kindName := by
  rcases spare_cases around node with same | same
  · rw [same]
  · rw [same, CanvasNode.withoutBody_eq]
    exact Content.kindName_withoutBody node.content

theorem id_spare_only (around : List String) (id : String) (content : Content)
    (node : CanvasNode) : (spare around (only id (·.holding content) node)).id = node.id :=
  (id_spare _ _).trans (id_only id (·.holding content) (fun _ => rfl) node)

theorem parent_spare_only (around : List String) (id : String) (content : Content)
    (node : CanvasNode) : (spare around (only id (·.holding content) node)).parent = node.parent :=
  (parent_spare _ _).trans (parent_only id content node)

/-- Dropping bodies and writing into a hidden node leaves it hidden. -/
theorem Hidden.write {id : String} (hidden : graph.Hidden id) (content : Content)
    (start : Option String)
    (nodes : graph'.nodes =
      (((GraphEdit.write id content start).apply graph).dropBodies start).nodes) :
    graph'.Hidden id := by
  let written (node : CanvasNode) : CanvasNode :=
    spare (graph.around start) (only id (·.holding content) node)
  have nodes : graph'.nodes = graph.nodes.map written := nodes.trans (nodes_write ..)
  have ids : ∀ node, (written node).id = node.id := id_spare_only (graph.around start) id content
  have parents : ∀ node, (written node).parent = node.parent :=
    parent_spare_only (graph.around start) id content
  have known : graph'.hasNode = graph.hasNode := hasNode_map nodes ids
  have id_listed (node : CanvasNode) : (graph'.listed (written node)).id = (graph.listed node).id :=
    ids node
  have parent_listed (node : CanvasNode) :
      (graph'.listed (written node)).parent = (graph.listed node).parent := by
    rw [listed, listed, known, parents]
  rw [Hidden, HiddenIn, toNodes_eq, nodes, List.map_map]
  intro child' below named
  obtain ⟨child, inside, rfl⟩ := List.mem_map.mp below
  obtain ⟨low, apart⟩ := hidden (graph.listed child) (List.mem_map_of_mem inside)
    ((id_listed child).symm.trans named)
  refine ⟨by rwa [Node.isTopLevel, Function.comp, parent_listed], ?_⟩
  intro outer' above under top
  obtain ⟨outer, around, rfl⟩ := List.mem_map.mp above
  rw [Function.comp, Function.comp, parent_listed, id_listed] at under
  rw [Function.comp, Node.isTopLevel, parent_listed] at top
  have mentioned : graph.listed outer ∈ graph.toNodes := List.mem_map_of_mem around
  have other : outer.id ≠ id := fun same =>
    Bool.false_ne_true ((hidden _ mentioned same).1.symm.trans top)
  have unwritten : only id (·.holding content) outer = outer := if_neg (by simpa using other)
  rw [← apart _ mentioned under top, Function.comp, listed, known]
  show Node.showsBelow { (spare _ (only id _ outer)).toNode with
    parent := (spare _ (only id _ outer)).parent.filter _ } = _
  rw [unwritten]
  rcases spare_cases (graph.around start) outer with same | same
  · rw [same]
    rfl
  · rw [same, CanvasNode.withoutBody_eq]
    exact showsBelow_withoutBody (graph.listed outer)

/-- A node into which a content is written is of the kind of the content. -/
theorem kindName_write {id : String} {content : Content} {start : Option String}
    {node : CanvasNode} (member : node ∈
      (((GraphEdit.write id content start).apply graph).dropBodies start).nodes)
    (named : node.id = id) : node.kindName = content.kindName := by
  rw [nodes_write] at member
  obtain ⟨before, inside, rfl⟩ := List.mem_map.mp member
  rw [id_spare, id_only id (·.holding content) fun _ => rfl] at named
  rw [kindName_spare, only, if_pos (by simpa using named)]
  rfl

/-- A graph with another content in one node lists it with that content. -/
theorem toNodes_holding {id : String} {content : Content}
    (nodes : graph'.nodes = graph.nodes.map (only id (·.holding content))) :
    graph'.toNodes = graph.toNodes.map (Node.rewriting id content) := by
  have known : graph'.hasNode = graph.hasNode :=
    hasNode_map nodes (id_only id (·.holding content) fun _ => rfl)
  rw [toNodes_eq, toNodes_eq, nodes, List.map_map, List.map_map]
  refine List.map_congr_left fun node _ => ?_
  rw [Function.comp, Function.comp, listed, listed, known, parent_only]
  by_cases named : node.id = id
  · rw [only, if_pos (by simpa using named), Node.rewriting, if_pos named]
    rfl
  · rw [only, if_neg (by simpa using named), Node.rewriting, if_neg named]

end Graph

/-! ## Kinds -/

/-- The attributes read from a payload are of the kind that they are read as. -/
theorem Attributes.kind_ofFields {kind : NodeKind} {fields : Json.Fields} {attributes : Attributes}
    (read : Attributes.ofFields kind fields = .ok attributes) : attributes.kind = kind := by
  cases kind <;> simp only [Attributes.ofFields, bind, Except.bind, pure, Except.pure] at read <;>
    (repeat' split at read) <;> cases read <;> rfl

theorem Content.kindName_ofFields {kind : String} {fields : Json.Fields} {content : Content}
    (read : Content.ofFields kind fields = .ok content) : content.kindName = kind := by
  rw [Content.ofFields] at read
  split at read
  · next known named =>
    cases found : Attributes.ofFields known fields with
    | error fault =>
      rw [found] at read
      cases read
    | ok attributes =>
      rw [found] at read
      cases read
      rw [Content.kindName, Attributes.kind_ofFields found]
      exact NodeKind.name_of_ofName? named
  · cases read
    rfl

/-- Changed fields leave the kind. -/
theorem Graph.kindName_changedContent {node : CanvasNode} {changes : Json.Fields}
    {content : Content} (changed : changedContent node changes = .ok content) :
    content.kindName = node.kindName := by
  unfold changedContent at changed
  rw [Node.kindName]
  split at changed
  · next kind payload holds =>
    rw [holds]
    exact Content.kindName_ofFields changed
  · next attributes holds =>
    dsimp only at changed
    split at changed
    · cases found : Attributes.ofFields attributes.kind
          (Catalog.union attributes.toFields changes) with
      | error fault =>
        rw [found] at changed
        cases changed
      | ok written =>
        rw [found] at changed
        cases changed
        rw [holds, Content.kindName, Content.kindName, Attributes.kind_ofFields found]
    · cases changed

theorem of_map_eq_ok_some {α β : Type} {make : α → β} {result : Except Fault (Option α)} {b : β}
    (made : (·.map make) <$> result = .ok (some b)) : ∃ a, result = .ok (some a) ∧ make a = b := by
  cases result with
  | error fault => cases made
  | ok found =>
    obtain ⟨a, rfl, same⟩ := Option.map_eq_some_iff.mp (Except.ok.inj made)
    exact ⟨a, rfl, same⟩

theorem Attributes.kind_writeHandle {attributes written : Attributes} {handle text : String}
    (writes : attributes.writeHandle handle text = .ok (some written)) :
    written.kind = attributes.kind := by
  unfold Attributes.writeHandle at writes
  split at writes
  case h_9 | h_10 =>
    obtain ⟨_, -, rfl⟩ := of_map_eq_ok_some writes
    rfl
  all_goals cases writes <;> rfl

/-- So does an edge. -/
theorem kind_of_effect {source target : CanvasNode} {from_ into written : Attributes}
    {handle : String} (does : effect source target from_ into handle = .ok (some (.write written))) :
    written.kind = into.kind := by
  unfold effect at does
  split at does
  · split at does <;> cases does
  · obtain ⟨_, same⟩ := Option.map_eq_some_iff.mp (Except.ok.inj does)
    cases same.2
    rfl
  · split at does
    · obtain ⟨_, same⟩ := Option.map_eq_some_iff.mp (Except.ok.inj does)
      cases same.2
      rfl
    · cases does
  · split at does
    · cases does
    · next text _ =>
      cases found : into.writeHandle handle text with
      | error fault =>
        rw [found] at does
        cases does
      | ok result =>
        rw [found] at does
        obtain ⟨_, rfl, same⟩ := Option.map_eq_some_iff.mp (Except.ok.inj does)
        cases same
        exact Attributes.kind_writeHandle found

namespace GraphEdit

/-- What a command writes into a node is of the kind that the node has. -/
theorem Asked.kindName {session : Session} {command : Command} {edit : GraphEdit} {id : String}
    {content : Content} {start : Option String} (asked : Asked session command edit)
    (writes : edit = .write id content start) :
    ∃ node, session.graph.node? id = some node ∧ content.kindName = node.kindName := by
  cases asked with
  | addNode => cases writes
  | removeNode => cases writes
  | @connect source target sourceHandle targetHandle sourceNode targetNode from_ into effect first
      second given taken does =>
    cases effect with
    | adopt => cases writes
    | write written =>
      cases writes
      refine ⟨targetNode, second, ?_⟩
      rw [Node.kindName, taken, Content.kindName, Content.kindName, kind_of_effect does]
  | @update id changes node content free found changed =>
    cases writes
    exact ⟨node, found, Graph.kindName_changedContent changed⟩

end GraphEdit

namespace Session

open GraphEdit (Asked)
open Graph (newId only)

variable {session : Session} {command command' : Command} {graph graph' : Graph} {id : String}

/-! ## Reading back -/

/-- Two graphs that differ in the content of a node that their texts do not show are written alike. -/
theorem renewed_hidden (session : Session) {content : Content} (hidden : graph.Hidden id)
    (kinds : ∀ node ∈ graph.nodes, node.id = id → content.kindName = node.kindName)
    (nodes : graph'.nodes = graph.nodes.map (only id (·.holding content))) :
    session.renewedText graph' = session.renewedText graph ∧
      (session.renewed graph').2 = (session.renewed graph).2 := by
  have written : session.writing? graph' = session.writing? graph := by
    rw [writing?, writing?, Graph.toNodes_holding nodes, Program.render_hidden _ hidden]
  refine ⟨by rw [renewedText, renewedText, written], ?_⟩
  rw [renewed, renewed, written]
  split
  · rfl
  · next program _ =>
    cases read : parse session.setup.settings.reclassify program.text with
    | error error => rw [settle, settle, read]
    | ok parsed =>
      rw [renamed_settle read, renamed_settle read]
      refine Graph.newIds_map ?_ (Graph.id_only id (·.holding content) fun _ => rfl)
        (Graph.parent_only id content) ?_
      · show List.map _ graph'.nodes = List.map _ (List.map _ graph.nodes)
        rw [nodes, List.map_map, List.map_map]
        refine List.map_congr_left fun node _ => ?_
        rw [Function.comp, Function.comp, only, only, apply_ite CanvasNode.toNode]
        split <;> rfl
      · intro node' member
        obtain ⟨node, inside, rfl⟩ := List.mem_map.mp member
        rw [only]
        split
        · next named => exact kinds node inside (by simpa using named)
        · rfl

/-- The id that a node has after a command. -/
def place (session : Session) (command : Command) (id : String) : String :=
  match command.change? session with
  | some change => newId (session.renewed (change session.graph).1).2 id
  | none => id

/-- What is read from the text after a command has some content in the place of a node. -/
def ReadsBack (session : Session) (depth : Nat) (command : Command) (id : String)
    (content : Content) : Prop :=
  ∃ nodes ∈ (parse session.setup.settings.reclassify (session.next depth command).text).toOption,
    ∃ node ∈ nodes, node.id = session.place command id ∧ node.content = content

/-- **Lost edits**: after writing into a node that the text does not show, neither the text nor the
place of the node depends on what was written, so the same is read back for anything. -/
theorem readsBack_hidden (depth : Nat) (idle : session.phase = .idle)
    (listeners : session.setup.OperatesOnly) (hidden : session.graph.Hidden id) {content content' : Content} {start : Option String}
    (asked : Asked session command (.write id content start))
    (asked' : Asked session command' (.write id content' start)) :
    (session.next depth command').text = (session.next depth command).text ∧
      ∀ read, session.ReadsBack depth command' id read ↔ session.ReadsBack depth command id read := by
  obtain ⟨change, after, asks, shown, nodes⟩ := asked.shown
  obtain ⟨change', after', asks', shown', nodes'⟩ := asked'.shown
  obtain ⟨node, found, kind⟩ := asked.kindName rfl
  obtain ⟨_, found', kind'⟩ := asked'.kindName rfl
  cases found.symm.trans found'
  let other : Content :=
    if (session.graph.around start).contains id then content'.withoutBody else content'
  have differ : after'.nodes = after.nodes.map (only id (·.holding other)) := by
    rw [nodes]
    exact nodes'.trans (Graph.nodes_write_other session.graph id content content' start)
  have kinds : ∀ node' ∈ after.nodes, node'.id = id → other.kindName = node'.kindName := by
    intro node' member named
    rw [Graph.kindName_write (nodes ▸ member) named, kind, ← kind', apply_ite Content.kindName,
      Content.kindName_withoutBody, ite_self]
  obtain ⟨text, renamed⟩ :=
    renewed_hidden session (hidden.write content start nodes) kinds differ
  have same : (session.next depth command').text = (session.next depth command).text := by
    rw [(next_of_shown depth idle listeners asks' shown').1, text,
      (next_of_shown depth idle listeners asks shown).1]
  refine ⟨same, fun read => ?_⟩
  rw [ReadsBack, ReadsBack, same, place, place, asks, asks']
  dsimp only
  rw [shown, shown', renamed]

/-- A session in which a function that returns an operation on an operation has been read. -/
def nested : Session :=
  (start {} none {}).next 0
    (.changeText (.whole "export function f() \x7b\n  return a + b * c;\n\x7d"))

/-- The inner operation of that session with another left operand. -/
def product (left : String) : Content :=
  .typed (.binaryOp { operator := "*", left := some left, right := some "c" })

/-- Giving the inner operation another left operand writes it into the node. -/
theorem asked_nested : ∃ start, ∀ left, Asked nested (.update "#2" [("lhs", .string left)])
    (.write (nested.graph.resolve "#2") (product left) start) := by
  obtain ⟨node, found, holds⟩ : ∃ node ∈ nested.graph.node? (nested.graph.resolve "#2"),
      node.content = product "b" := by
    decide +kernel
  refine ⟨node.parent, fun left => .update (by rfl) found ?_⟩
  rw [Graph.changedContent, holds]
  rfl

/-- Two edits of the inner operation come to the same text. -/
theorem readsBack_nested :
    ∃ start, Asked nested (.update "#2" [("lhs", .string "7")])
        (.write (nested.graph.resolve "#2") (product "7") start) ∧
      Asked nested (.update "#2" [("lhs", .string "8")])
        (.write (nested.graph.resolve "#2") (product "8") start) ∧
      (nested.next 0 (.update "#2" [("lhs", .string "8")])).text =
        (nested.next 0 (.update "#2" [("lhs", .string "7")])).text ∧
      ∀ read, nested.ReadsBack 0 (.update "#2" [("lhs", .string "8")]) (nested.graph.resolve "#2")
        read ↔ nested.ReadsBack 0 (.update "#2" [("lhs", .string "7")])
          (nested.graph.resolve "#2") read := by
  obtain ⟨unheard, idle, hidden⟩ : nested.setup.listeners = [] ∧ nested.phase = .idle ∧
      nested.graph.Hidden (nested.graph.resolve "#2") := by
    unfold Graph.Hidden HiddenIn
    decide +kernel
  obtain ⟨start, asked⟩ := asked_nested
  exact ⟨start, asked "7", asked "8", readsBack_hidden 0 idle
    (Setup.operatesOnly_of_unheard unheard) hidden (asked "7") (asked "8")⟩

/-- An edit of the inner operation is in the graph, but is not read back. -/
theorem not_readsBack_nested :
    (∃ start, Asked nested (.update "#2" [("lhs", .string "7")])
        (.write (nested.graph.resolve "#2") (product "7") start)) ∧
      (∃ node ∈ (nested.next 0 (.update "#2" [("lhs", .string "7")])).graph.nodes,
        node.id = nested.place (.update "#2" [("lhs", .string "7")]) (nested.graph.resolve "#2") ∧
          node.content = product "7") ∧
      ¬nested.ReadsBack 0 (.update "#2" [("lhs", .string "7")]) (nested.graph.resolve "#2")
        (product "7") := by
  obtain ⟨start, asked⟩ := asked_nested
  refine ⟨⟨start, asked "7"⟩, ?_⟩
  unfold ReadsBack
  decide +kernel

end Session

end SourceCanvas
