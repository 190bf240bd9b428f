import SourceCanvas.Proofs.CanonicalNodes
import SourceCanvas.Proofs.Outlines
import SourceCanvas.Proofs.PayloadReading

/-!
# Program texts that are read back

The text of canonical nodes is read statement by statement, since each block is one whatever stands
below it (`WrittenNode.all_stacked`). So the nodes at the top level of the text are those that were
written, in order, each with what its text keeps and at the place of its block, and they have the
same text again (`parse_render`).
-/

namespace SourceCanvas

open Stroke (Legible Paired Phrase)

/-! ## Blocks one below the other -/

namespace Stroke

/-- What stands between two blocks. -/
def emptyLine : Stroke := gap (.blanks ['\n', '\n'])

/-- The strokes of blocks with an empty line between neighbours. -/
def stacked : List (List Stroke) → List Stroke
  | [] => []
  | [block] => block
  | block :: next :: blocks => block ++ emptyLine :: stacked (next :: blocks)

variable {block next : List Stroke} {blocks : List (List Stroke)} {after : List Char}
  {before : Bool}

theorem written_stacked (blocks : List (List Stroke)) :
    written (stacked blocks) = Program.separator.toList.intercalate (blocks.map written) := by
  induction blocks with
  | nil => rfl
  | cons block blocks ih =>
    cases blocks with
    | nil => simp [stacked]
    | cons next blocks =>
      rw [stacked, written_append, List.map_cons, List.map_cons, List.intercalate_cons_cons,
        ← List.map_cons, ← ih, List.append_assoc]
      rfl

/-- What is below a block starts a line, two characters behind it. -/
theorem tokens_stacked (newline : Bool) (offset : Nat) (block : List Stroke)
    (blocks : List (List Stroke)) :
    tokens newline offset (stacked (block :: blocks)) = tokens newline offset block ++
      tokens true (offset + (written block).length + 2) (stacked blocks) := by
  cases blocks with
  | nil => exact (List.append_nil _).symm
  | cons next blocks =>
    rw [stacked, tokens_append, emptyLine, tokens]
    congr 2
    exact Bool.or_true _

/-- A phrase has a token: gaps alone could end with a line break. -/
theorem Phrase.tokens_ne (phrase : Phrase block) (newline : Bool) (offset : Nat) :
    tokens newline offset block ≠ [] := by
  have gaps {strokes : List Stroke} {newline : Bool} {offset : Nat}
      (none : tokens newline offset strokes = []) : breaks true strokes = true := by
    induction strokes generalizing newline offset with
    | nil => rfl
    | cons stroke strokes ih =>
      cases stroke with
      | lexeme kind value => cases none
      | gap filler => exact ih none
  intro none
  have broken := gaps none
  rw [phrase.unbroken] at broken
  cases broken

theorem phrase_stacked (first : Phrase block) (others : ∀ next ∈ blocks, Phrase next) :
    Phrase (stacked (block :: blocks)) := by
  induction blocks generalizing block with
  | nil => exact first
  | cons next blocks ih =>
    obtain ⟨second, others⟩ := List.forall_mem_cons.mp others
    have later := ih second others
    refine ⟨fun ends => ?_, first.solid_append _, ?_, fun newline => ?_⟩
    · exact legible_append.mpr ⟨first.legible (Lexer.chunk_cons_of_ends (by decide) _),
        .blanks (List.cons_ne_nil _ _) (by simp [Lexer.isSpace]) (later.head _)
          (later.legible ends)⟩
    · exact first.paired.append (.plain rfl later.paired)
    · rw [stacked, breaks_append]
      exact later.unbroken _

end Stroke

/-- The tokens of a text of phrases are those of the strokes, and one for the end. -/
theorem tokenize_of_phrase {strokes : List Stroke} (phrase : Phrase strokes) (text : String)
    (same : Stroke.written strokes = text.toList) :
    tokenize text = .ok (Stroke.tokens false 0 strokes ++ [.atEnd text.length false]) := by
  have reads : Lexer.Reads none false 0 (Stroke.written strokes ++ [])
      (Stroke.tokens false 0 strokes ++ []) (.ok false) :=
    (phrase.legible rfl).reads rfl fun previous _ => by
      rw [phrase.unbroken]
      exact .ended
  rw [List.append_nil, List.append_nil, same] at reads
  have closed := (phrase.paired.balanced false 0).openBrackets [] []
  rw [List.append_nil] at closed
  rw [tokenize_of_pieces (Lexer.pieces_of_reads reads (Nat.le_refl _)), closed]
  rfl

/-! ## Statements one below the other -/

/-- A node with the strokes of its block and what is found in them. -/
structure WrittenNode (step : Nat) where
  node : Node
  strokes : List Stroke
  attributes : Attributes
  top : node.parent = none
  kept : node.kept = .typed attributes
  statement : Stroke.Statement strokes attributes
  block : node.block step [] = .ok (String.ofList (Stroke.written strokes))
  again : ∀ {found : Node} {children}, found.content = .typed attributes →
    found.block step children = .ok (String.ofList (Stroke.written strokes))

/-- A node of one of the forms is written. -/
theorem Node.IsCanonical.exists_written {node : Node} (canonical : node.IsCanonical) (step : Nat) :
    ∃ written : WrittenNode step, written.node = node := by
  obtain ⟨form, typed⟩ := canonical.formed
  exact ⟨{
    node
    strokes := form.strokes step node.id
    attributes := form.found node.id
    top := canonical.top
    kept := Node.kept_of_canonical typed
    statement := form.statement canonical.identified
    block := Node.block_of_canonical typed
    again := Node.block_of_found }, rfl⟩

namespace WrittenNode

variable {step : Nat}

/-- The block of a node. -/
def text (written : WrittenNode step) : String := String.ofList (Stroke.written written.strokes)

/-- The block of a node, with its id. -/
def entry (written : WrittenNode step) : String × String := (written.node.id, written.text)

/-- The strokes of nodes one below the other. -/
def stacked (nodes : List (WrittenNode step)) : List Stroke :=
  Stroke.stacked (nodes.map strokes)

/-- A construct is what is found of a node in a range. -/
structure FoundAt (written : WrittenNode step) (range : Span) (construct : Construct) : Prop where
  attributes : construct.attributes = written.attributes
  start : construct.span.start = range.start
  stop : construct.span.stop ≤ range.stop
  last : range.stop ≤ construct.span.stop + 1

variable {reading : Reading} {newline : Bool} {offset fuel : Nat} {fence : Token}
  {nodes : List (WrittenNode step)}

theorem length_text (written : WrittenNode step) :
    written.text.length = (Stroke.written written.strokes).length :=
  String.length_ofList

theorem written_stacked (nodes : List (WrittenNode step)) :
    Stroke.written (stacked nodes) = Program.chars (nodes.map entry) := by
  rw [stacked, Stroke.written_stacked, Program.chars, List.map_map, List.map_map]
  exact congrArg _ (List.map_congr_left fun node _ => String.toList_ofList.symm)

theorem phrase_stacked (first : WrittenNode step) (others : List (WrittenNode step)) :
    Phrase (stacked (first :: others)) :=
  Stroke.phrase_stacked first.statement.phrase
    (List.forall_mem_map.mpr fun node _ => node.statement.phrase)

theorem tokens_stacked (newline : Bool) (offset : Nat) (node : WrittenNode step)
    (nodes : List (WrittenNode step)) :
    Stroke.tokens newline offset (stacked (node :: nodes)) =
      Stroke.tokens newline offset node.strokes ++
        Stroke.tokens true (offset + node.text.length + 2) (stacked nodes) := by
  rw [node.length_text]
  exact Stroke.tokens_stacked newline offset node.strokes (nodes.map strokes)

/-- Each block has a token. -/
theorem length_le_tokens (nodes : List (WrittenNode step)) (newline : Bool) (offset : Nat) :
    nodes.length ≤ (Stroke.tokens newline offset (stacked nodes)).length := by
  induction nodes generalizing newline offset with
  | nil => exact Nat.zero_le _
  | cons node others ih =>
    have filled := List.length_pos_of_ne_nil (node.statement.phrase.tokens_ne newline offset)
    have later := ih true (offset + node.text.length + 2)
    rw [tokens_stacked, List.length_append, List.length_cons]
    omega

theorem unclosed_stacked (nodes : List (WrittenNode step)) (newline : Bool) (offset : Nat) :
    Unclosed (Stroke.tokens newline offset (stacked nodes)) := by
  induction nodes generalizing newline offset with
  | nil => exact .nil
  | cons node others ih =>
    rw [tokens_stacked]
    exact node.statement.unclosed (ih _ _)

/-- A statement is read before those below it. -/
theorem all_cons {tokens rest : List Token} {construct : Construct} (filled : tokens ≠ [])
    (read : reading.topStatement ⟨tokens ++ rest, fence⟩ = some ([construct], ⟨rest, fence⟩)) :
    StatementReader.all reading.topStatement (fuel + 1) ⟨tokens ++ rest, fence⟩ =
      construct :: StatementReader.all reading.topStatement fuel ⟨rest, fence⟩ := by
  obtain ⟨first, others, rfl⟩ := List.exists_cons_of_ne_nil filled
  have moved : rest.length ≠ (first :: others ++ rest).length := by
    simp
    omega
  have started : (⟨first :: others ++ rest, fence⟩ : Cursor).atEnd = false := rfl
  rw [StatementReader.all, started, StatementReader.orSkip, read]
  show construct :: StatementReader.all _ fuel
    (StatementReader.progress ⟨first :: others ++ rest, fence⟩ ⟨rest, fence⟩) = _
  rw [StatementReader.progress, Cursor.size, Cursor.size, if_neg moved]

theorem standsAt_cons {source : List Char} {node : WrittenNode step}
    (stands : StandsAt source offset (Stroke.written (stacked (node :: nodes)))) :
    StandsAt source offset (Stroke.written node.strokes) ∧
      (nodes ≠ [] →
        StandsAt source (offset + node.text.length + 2) (Stroke.written (stacked nodes))) := by
  rw [node.length_text]
  cases nodes with
  | nil => exact ⟨stands, fun filled => absurd rfl filled⟩
  | cons next nodes =>
    have parts : Stroke.written (stacked (node :: next :: nodes)) =
        Stroke.written node.strokes ++ (['\n', '\n'] ++ Stroke.written (stacked (next :: nodes))) :=
      Stroke.written_append node.strokes _
    rw [parts] at stands
    exact ⟨stands.left, fun _ => stands.right.right⟩

/-- The first block is read before those below it. -/
theorem exists_topStatement {node : WrittenNode step} (others : List (WrittenNode step))
    (newline : Bool) (on : reading.reclassify = true) (closed : fence.Closes)
    (stands : StandsAt reading.source offset (Stroke.written node.strokes)) :
    ∃ construct, node.FoundAt ⟨offset, offset + node.text.length⟩ construct ∧
      reading.topStatement ⟨Stroke.tokens newline offset node.strokes ++
          Stroke.tokens true (offset + node.text.length + 2) (stacked others), fence⟩ =
        some ([construct],
          ⟨Stroke.tokens true (offset + node.text.length + 2) (stacked others), fence⟩) := by
  obtain ⟨span, children, read, start, stop, last⟩ :=
    node.statement.read on closed (unclosed_stacked others true _) stands
  rw [← node.length_text] at stop last
  exact ⟨.mk node.attributes span children, ⟨rfl, start, stop, last⟩, read⟩

/-- **The blocks of nodes are read** one after the other, each where it stands. -/
theorem all_stacked (on : reading.reclassify = true) (closed : fence.Closes)
    (enough : nodes.length ≤ fuel)
    (stands : nodes ≠ [] → StandsAt reading.source offset (Stroke.written (stacked nodes))) :
    List.Forall₂ (fun node construct => ∃ range,
        (node.node.id, range) ∈ Program.spansFrom offset (nodes.map entry) ∧
          node.FoundAt range construct) nodes
      (StatementReader.all reading.topStatement fuel
        ⟨Stroke.tokens newline offset (stacked nodes), fence⟩) := by
  induction nodes generalizing newline offset fuel with
  | nil => cases fuel <;> exact .nil
  | cons node others ih =>
    obtain ⟨fuel, rfl⟩ : ∃ less, fuel = less + 1 :=
      Nat.exists_eq_add_one_of_ne_zero (Nat.ne_zero_of_lt (Nat.lt_of_succ_le enough))
    obtain ⟨here, below⟩ := standsAt_cons (stands (List.cons_ne_nil _ _))
    obtain ⟨construct, found, read⟩ := exists_topStatement others newline on closed here
    have later : List.Forall₂ _ others (StatementReader.all reading.topStatement fuel
        ⟨Stroke.tokens true (offset + node.text.length + 2) (stacked others), fence⟩) :=
      ih (Nat.le_of_succ_le_succ enough) below
    rw [tokens_stacked, all_cons (node.statement.phrase.tokens_ne newline offset) read]
    exact .cons ⟨_, List.mem_cons_self .., found⟩
      (later.imp fun _ _ ⟨range, member, found⟩ => ⟨range, List.mem_cons_of_mem _ member, found⟩)

/-- The tokens of the blocks of nodes are those of their strokes, and one for the end. -/
theorem tokenize_stacked {text : String} (nodes : List (WrittenNode step))
    (same : Stroke.written (stacked nodes) = text.toList) :
    tokenize text =
      .ok (Stroke.tokens false 0 (stacked nodes) ++ [.atEnd text.length false]) := by
  cases nodes with
  | nil =>
    obtain rfl : text = "" := String.toList_eq_nil_iff.mp same.symm
    rfl
  | cons first others => exact tokenize_of_phrase (phrase_stacked first others) text same

/-- The outline of the blocks of nodes has what is found in each, where it stands. -/
theorem outline_stacked {text : String} (nodes : List (WrittenNode step))
    (same : Stroke.written (stacked nodes) = text.toList) : ∃ constructs,
    outline true text = .ok constructs ∧
      List.Forall₂ (fun node construct => ∃ range,
        (node.node.id, range) ∈ Program.spansFrom 0 (nodes.map entry) ∧
          node.FoundAt range construct) nodes constructs := by
  have many : nodes.length ≤ (Stroke.tokens false 0 (stacked nodes)).length + 1 :=
    Nat.le_succ_of_le (length_le_tokens nodes false 0)
  have tokens := tokenize_stacked nodes same
  rw [outline, tokens]
  refine ⟨_, rfl, ?_⟩
  rw [Reading.outline, List.dropLast_concat, List.getLastD_concat, List.length_append]
  exact all_stacked rfl (.inr rfl) many
    fun _ => ⟨[], [], by rw [same, List.append_nil, List.nil_append], rfl⟩

end WrittenNode

/-! ## Nodes at the top level -/

namespace Construct

variable {node : Node} {constructs : List Construct}

/-- The node of a construct at the top level. -/
def topNode (construct : Construct) : Node :=
  { id := construct.id, content := .typed construct.attributes, span := some construct.span }

mutual

/-- The nodes of a construct below a parent do not lie at the top level. -/
theorem nested_nodes {id : String} : ∀ construct : Construct, node ∈ construct.nodes (some id) →
    node.isTopLevel = false
  | .mk attributes span children => fun member => by
    rw [nodes] at member
    rcases List.mem_cons.mp member with rfl | inside
    · rfl
    · exact nested_listNodes children inside

/-- Nor do the nodes of several constructs there. -/
theorem nested_listNodes {id : String} : ∀ constructs : List Construct,
    node ∈ listNodes (some id) constructs → node.isTopLevel = false
  | [] => nofun
  | construct :: others => fun member => by
    rw [listNodes] at member
    rcases List.mem_append.mp member with first | later
    · exact nested_nodes construct first
    · exact nested_listNodes others later

end

/-- The nodes at the top level are those of the outermost constructs, in order. -/
theorem topLevel_listNodes (constructs : List Construct) :
    (listNodes none constructs).filter Node.isTopLevel = constructs.map topNode := by
  induction constructs with
  | nil => rfl
  | cons construct others ih =>
    have first : (construct.nodes none).filter Node.isTopLevel = [construct.topNode] := by
      obtain ⟨attributes, span, children⟩ := construct
      have below : (listNodes (some (mk attributes span children).id) children).filter
          Node.isTopLevel = [] :=
        List.filter_eq_nil_iff.mpr fun node member =>
          Bool.eq_false_iff.mp (nested_listNodes children member)
      rw [nodes]
      exact congrArg (topNode (.mk attributes span children) :: ·) below
    rw [listNodes, List.filter_append, first, ih]
    rfl

end Construct

namespace Program

variable {step : Nat} {nodes : List Node}

/-- A program text is made of the blocks of the nodes at the top level. -/
theorem render_of_texts {texts : List String}
    (shown : List.Forall₂ (fun node text => node.block step (childrenOf nodes node.id) = .ok text)
      (nodes.filter Node.isTopLevel) texts) :
    render step nodes =
      .ok (ofBlocks (((nodes.filter Node.isTopLevel).map Node.id).zip texts)) := by
  have found : blocks step nodes =
      .ok (((nodes.filter Node.isTopLevel).map Node.id).zip texts) := by
    refine mapM_eq_ok_iff.mpr ?_
    generalize nodes.filter Node.isTopLevel = items at shown ⊢
    induction shown with
    | nil => exact .nil
    | cons first _ ih => exact .cons (by rw [first]; rfl) ih
  rw [render, found]
  rfl

theorem names_spansFrom (offset : Nat) (blocks : List (String × String)) :
    (spansFrom offset blocks).map Prod.fst = blocks.map Prod.fst := by
  induction blocks generalizing offset with
  | nil => rfl
  | cons block others ih => exact congrArg (block.1 :: ·) (ih _)

/-- The range of a block is found under its id. -/
theorem get?_ranges {blocks : List (String × String)} {id : String} {range : Span}
    (apart : (blocks.map Prod.fst).Nodup) (member : (id, range) ∈ spansFrom 0 blocks) :
    (ofBlocks blocks).ranges.get? id = some range := by
  have distinct : (Catalog.names (spansFrom 0 blocks)).Nodup := by
    rwa [Catalog.names, names_spansFrom]
  rw [ofBlocks, Catalog.ofList_of_nodup distinct]
  exact Catalog.get?_of_mem distinct member

theorem text_ofBlocks_zip {ids texts : List String} (same : ids.length = texts.length) :
    (ofBlocks (ids.zip texts)).text = separator.intercalate texts := by
  rw [ofBlocks, List.map_snd_zip same.ge]

end Program

namespace WrittenNode

variable {step : Nat}

theorem filter_isTopLevel (nodes : List (WrittenNode step)) :
    (nodes.map node).filter Node.isTopLevel = nodes.map node :=
  List.filter_eq_self.mpr
    (List.forall_mem_map.mpr fun node _ => by simp [Node.isTopLevel, node.top])

theorem childrenOf_map (nodes : List (WrittenNode step)) (id : String) :
    childrenOf (nodes.map node) id = [] :=
  List.filter_eq_nil_iff.mpr (List.forall_mem_map.mpr fun node _ => by simp [node.top])

/-- The program text of nodes is made of their blocks. -/
theorem render_nodes (nodes : List (WrittenNode step)) :
    render step (nodes.map node) = .ok (Program.ofBlocks (nodes.map entry)) := by
  have shown : List.Forall₂ (fun found text => found.block step
      (childrenOf (nodes.map node) found.id) = .ok text)
      ((nodes.map node).filter Node.isTopLevel) (nodes.map text) := by
    rw [filter_isTopLevel, List.forall₂_map_left_iff, List.forall₂_map_right_iff, List.forall₂_same]
    intro node _
    rw [childrenOf_map]
    exact node.block
  rw [Program.render_of_texts shown, filter_isTopLevel, List.map_map]
  exact congrArg (Except.ok ∘ Program.ofBlocks) List.zip_map'

/-- The program text of what is found of nodes is that of the nodes. -/
theorem render_found {nodes : List (WrittenNode step)} {found : List Node}
    (same : List.Forall₂ (fun node found => found.content = .typed node.attributes) nodes
      (found.filter Node.isTopLevel)) :
    ∃ again, render step found = .ok again ∧
      again.text = (Program.ofBlocks (nodes.map entry)).text := by
  have shown : List.Forall₂ (fun node text => node.block step (childrenOf found node.id) = .ok text)
      (found.filter Node.isTopLevel) (nodes.map text) := by
    rw [List.forall₂_map_right_iff]
    exact (same.imp fun node found same => node.again same).flip
  refine ⟨_, Program.render_of_texts shown, ?_⟩
  · rw [Program.text_ofBlocks_zip, Program.ofBlocks, List.map_map]
    · rfl
    · rw [List.length_map, List.length_map, same.length_eq]

end WrittenNode

/-! ## Program texts -/

/-- **Canonical nodes survive their text.** Nodes at the top level with ids of their own that are of
the forms have a text, whatever the step. Its nodes at the top level are those that were written, in
order and with what a text keeps of them, and each starts where the block of its node does and ends
where that does, but for a semicolon. Their text is the same. -/
theorem parse_render {nodes : List Node} (canonical : ∀ node ∈ nodes, node.IsCanonical)
    (apart : (nodes.map Node.id).Nodup) (step : Nat) :
    ∃ program parsed again,
      render step nodes = .ok program ∧ parse true program.text = .ok parsed ∧
      render step parsed = .ok again ∧ again.text = program.text ∧
      List.Forall₂
        (fun node found => found.content = node.kept ∧
          ∃ range place, program.ranges.get? node.id = some range ∧ found.span = some place ∧
            place.start = range.start ∧ place.stop ≤ range.stop ∧ range.stop ≤ place.stop + 1)
        nodes (parsed.filter Node.isTopLevel) := by
  obtain ⟨nodes, rfl⟩ : ∃ written : List (WrittenNode step),
      written.map WrittenNode.node = nodes := by
    have written : nodes ∈ Set.range (List.map fun written : WrittenNode step => written.node) := by
      rw [Set.range_list_map]
      exact fun node member => (canonical node member).exists_written step
    exact written
  obtain ⟨constructs, outlined, found⟩ := WrittenNode.outline_stacked nodes
    ((WrittenNode.written_stacked nodes).trans (Program.toList_text _).symm)
  have tops := Construct.topLevel_listNodes constructs
  have kept : List.Forall₂ (fun node found => found.content = .typed node.attributes) nodes
      ((Construct.listNodes none constructs).filter Node.isTopLevel) := by
    rw [tops, List.forall₂_map_right_iff]
    refine found.imp fun node construct found => ?_
    obtain ⟨_, _, found⟩ := found
    exact congrArg Content.typed found.attributes
  obtain ⟨again, rendered, same⟩ := WrittenNode.render_found kept
  refine ⟨_, _, again, WrittenNode.render_nodes nodes, ?_, rendered, same, ?_⟩
  · rw [parse, outlined]
    rfl
  · rw [tops, List.forall₂_map_left_iff, List.forall₂_map_right_iff]
    have distinct : ((nodes.map WrittenNode.entry).map Prod.fst).Nodup := by
      rwa [List.map_map] at apart ⊢
    refine found.imp fun node construct found => ?_
    obtain ⟨range, member, found⟩ := found
    exact ⟨(congrArg Content.typed found.attributes).trans node.kept.symm, range, construct.span,
      Program.get?_ranges distinct member, rfl, found.start, found.stop, found.last⟩

/-- An operation that could start a list of types, an interface with such lists, a variable without
a value and a string with quotes. -/
def comparedTypes : List Node := [
  { id := "a1", content := .typed (.binaryOp
      { operator := "<", left := some "x", right := some "y" }) },
  { id := "b2", content := .typed (.interfaceDecl
      { name := "box", members := [⟨"items", "list<list<text>>", true⟩],
        bases := ["base<list<list<text>>>"] }) },
  { id := "c3", content := .typed (.variableDecl
      { name := "total", declaredType := some "text[]" }) },
  { id := "d4", content := .typed (.literal { value := "say \"no\"" }) }]

/-- The text of these nodes. -/
def comparedTypesText : String :=
  unlines [
    "export const bin_a1 = x < y;",
    "",
    "export interface box extends base<list<list<text>>> \x7b",
    "  items?: list<list<text>>;",
    "\x7d",
    "",
    "export const total: text[] = undefined;",
    "",
    "export const lit_d4 = \"say \\\"no\\\"\";"]

/-- The operation and the string are found with their names, the variable with its value. -/
theorem parse_render_comparedTypes :
    ∃ program parsed again, render 2 comparedTypes = .ok program ∧
      program.text = comparedTypesText ∧ parse true program.text = .ok parsed ∧
      (parsed.filter Node.isTopLevel).map Node.content = [
        .typed (.binaryOp
          { operator := "<", left := some "x", right := some "y", name := some "bin_a1" }),
        .typed (.interfaceDecl
          { name := "box", members := [⟨"items", "list<list<text>>", true⟩],
            bases := ["base<list<list<text>>>"] }),
        .typed (.variableDecl
          { name := "total", declaredType := some "text[]", initializer := some "undefined" }),
        .typed (.literal { value := "say \\\"no\\\"", name := some "lit_d4" })] ∧
      render 2 parsed = .ok again ∧ again.text = program.text := by
  let x : PlainName := ⟨"x", by decide, by decide⟩
  let y : PlainName := ⟨"y", by decide, by decide⟩
  let box : PlainName := ⟨"box", by decide, by decide⟩
  let base : PlainName := ⟨"base", by decide, by decide⟩
  let items : PlainName := ⟨"items", by decide, by decide⟩
  let list : PlainName := ⟨"list", by decide, by decide⟩
  let text : PlainName := ⟨"text", by decide, by decide⟩
  let total : PlainName := ⟨"total", by decide, by decide⟩
  let nested : WrittenType false := .applied list (.single (.applied list (.single (.name text))))
  let forms : List Canonical := [
    .unnamed (.operation (.name x) ⟨"<", by decide⟩ (.name y)),
    .interfaceDecl box [.applied base (.single nested)] [⟨items, nested, true⟩],
    .variableDecl Canonical.constant total (some (.array (.name text))) none,
    .unnamed (.string "say \"no\"")]
  have typed : comparedTypes.map Node.content =
      forms.map fun form => Content.typed form.attributes := by decide +kernel
  have canonical : ∀ node ∈ comparedTypes, node.IsCanonical := by
    intro node member
    have content : node.content ∈ comparedTypes.map Node.content := List.mem_map_of_mem member
    rw [typed] at content
    obtain ⟨form, -, same⟩ := List.mem_map.mp content
    have identified : ∀ node ∈ comparedTypes, node.id ≠ "" ∧ node.parent = none := by decide
    exact ⟨(identified node member).1, (identified node member).2, form, same.symm⟩
  obtain ⟨program, parsed, again, rendered, read, rendered', same, found⟩ :=
    parse_render canonical (by decide) 2
  have contents : (parsed.filter Node.isTopLevel).map Node.content =
      comparedTypes.map Node.kept := by
    rw [← List.forall₂_eq_eq_eq, List.forall₂_map_left_iff, List.forall₂_map_right_iff]
    exact (found.imp fun _ _ found => found.1).flip
  have written : (render 2 comparedTypes).toOption.map Program.text = some comparedTypesText := by
    decide +kernel
  rw [rendered] at written
  refine ⟨program, parsed, again, rendered, Option.some.inj written, read, contents.trans ?_,
    rendered', same⟩
  decide +kernel

end SourceCanvas
