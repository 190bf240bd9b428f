import Mathlib.Data.List.Forall2
import Mathlib.Data.List.Nodup
import SourceCanvas.Outline.Basic
import SourceCanvas.Program.Render
import SourceCanvas.Proofs.Grouping

/-!
# The ranges of blocks

In a program text the blocks of the nodes at the top level stand one behind the other, with an empty
line between neighbours, and the ranges say where each of them is (`Program.Shows`). The offsets of
the ranges are counted apart from the text; that they fit it is shown for the blocks behind any
beginning (`covers_spansFrom`, `slices_spansFrom`). A block is made of its node and of the nodes
directly below it. So it is the same in every list that has these, and only its range is shifted
(`render_ranges`).
-/

namespace SourceCanvas

/-! ## Spans that cover a text -/

/-- From an offset on a text is covered by spans, with two line feeds between neighbours. -/
structure Span.Covers (text : List Char) (offset : Nat) (spans : List Span) : Prop where
  first : ∀ span ∈ spans.head?, span.start = offset
  inside : ∀ span ∈ spans, span.start ≤ span.stop ∧ span.stop ≤ text.length
  parted : spans.IsChain fun span next =>
    next.start = span.stop + 2 ∧ Span.slice ⟨span.stop, next.start⟩ text = "\n\n"
  last : (spans.getLast?.map Span.stop).getD offset = text.length

theorem Span.slice_append (before block after : List Char) :
    Span.slice ⟨before.length, before.length + block.length⟩ (before ++ (block ++ after)) =
      String.ofList block := by
  rw [Span.slice, List.drop_left, Nat.add_sub_cancel_left, List.take_left]

namespace Program

variable {step : Nat} {nodes : List Node} {node : Node} {program program' : Program}

/-- The characters of blocks with an empty line between neighbours. -/
def chars (blocks : List (String × String)) : List Char :=
  separator.toList.intercalate (blocks.map fun block => block.2.toList)

theorem toList_text (blocks : List (String × String)) :
    (ofBlocks blocks).text.toList = chars blocks := by
  rw [ofBlocks, chars, String.toList_intercalate, List.map_map]
  rfl

/-- What precedes the second of two blocks: the first one and two line feeds. -/
theorem append_chars (before : List Char) (block next : String × String)
    (others : List (String × String)) :
    before ++ chars (block :: next :: others) =
      before ++ block.2.toList ++ separator.toList ++ chars (next :: others) := by
  rw [chars, List.map_cons, List.map_cons, List.intercalate_cons_cons, List.append_assoc,
    List.append_assoc, List.append_assoc]
  rfl

theorem length_front (before : List Char) (block : String × String) :
    (before ++ block.2.toList ++ separator.toList).length =
      before.length + block.2.length + separator.length := by
  rw [List.length_append, List.length_append, String.length_toList, String.length_toList]

theorem chars_singleton (block : String × String) : chars [block] = block.2.toList :=
  List.intercalate_singleton

/-- Behind any beginning the spans of blocks cover the text. -/
theorem covers_spansFrom (before : List Char) (blocks : List (String × String)) :
    Span.Covers (before ++ chars blocks) before.length
      ((spansFrom before.length blocks).map Prod.snd) := by
  induction blocks generalizing before with
  | nil => exact ⟨nofun, nofun, .nil, by simp [spansFrom, chars]⟩
  | cons block others ih =>
    cases others with
    | nil =>
      have whole : (before ++ chars [block]).length = before.length + block.2.length := by
        rw [chars_singleton, List.length_append, String.length_toList]
      exact ⟨by simp [spansFrom], by simp [spansFrom, whole], .singleton _, whole.symm⟩
    | cons next others =>
      -- the rest is covered behind the block and the line feeds, in the same text
      have later := ih (before ++ block.2.toList ++ separator.toList)
      rw [← append_chars, length_front] at later
      have gap := Span.slice_append (before ++ block.2.toList) separator.toList
        (chars (next :: others))
      rw [String.ofList_toList, List.length_append, String.length_toList, String.length_toList,
        ← List.append_assoc, ← append_chars] at gap
      exact {
        first := by simp [spansFrom]
        inside := by
          intro span member
          rcases List.mem_cons.mp member with rfl | behind
          · refine ⟨Nat.le_add_right .., ?_⟩
            rw [append_chars, List.append_assoc, List.length_append, List.length_append,
              String.length_toList]
            exact Nat.le_add_right ..
          · exact later.inside span behind
        parted := .cons_cons ⟨rfl, gap⟩ later.parted
        last := later.last }

/-- Behind any beginning the spans of blocks have their ids, and in the spans stand the blocks. -/
theorem slices_spansFrom (before : List Char) (blocks : List (String × String)) :
    (spansFrom before.length blocks).map
      (fun entry => (entry.1, entry.2.slice (before ++ chars blocks))) = blocks := by
  induction blocks generalizing before with
  | nil => rfl
  | cons block others ih =>
    cases others with
    | nil =>
      have only := Span.slice_append before block.2.toList []
      rw [List.append_nil, String.ofList_toList, String.length_toList, ← chars_singleton] at only
      rw [spansFrom, List.map_cons, only]
      rfl
    | cons next others =>
      have later := ih (before ++ block.2.toList ++ separator.toList)
      have first := Span.slice_append before block.2.toList
        (separator.toList ++ chars (next :: others))
      rw [← append_chars, length_front] at later
      rw [String.ofList_toList, String.length_toList, ← List.append_assoc, ← List.append_assoc,
        ← append_chars] at first
      rw [spansFrom, List.map_cons, first, later]

end Program

/-! ## Nodes that can be read -/

section Readable

variable {step : Nat} {children : List Node} {node : Node}

/-- A node of a known kind has a payload that can be read as that of the kind. -/
def Node.Readable (node : Node) : Prop := ∃ attributes, node.attributes? = .ok attributes

/-- Nodes with attributes can be read, and so can those of unknown kind. -/
theorem Node.readable_of_typed (typed : node.content.isTyped = true ∨ node.kind? = none) :
    node.Readable := by
  obtain ⟨id, content, parent, span⟩ := node
  cases content with
  | typed attributes => exact ⟨some attributes, rfl⟩
  | raw kind payload =>
    have unknown : NodeKind.ofName? kind = none := typed.resolve_left nofun
    refine ⟨none, ?_⟩
    rw [attributes?]
    simp only [unknown]

theorem bind_succeeds {α β : Type} {first : Except Fault α} {later : α → Except Fault β}
    (succeeds : ∃ a, first = .ok a) (onward : ∀ a, ∃ b, later a = .ok b) :
    ∃ b, first >>= later = .ok b := by
  obtain ⟨a, rfl⟩ := succeeds
  exact onward a

theorem firstOperation?_of_readable (readable : ∀ child ∈ children, child.Readable) :
    ∃ operation, firstOperation? children = .ok operation := by
  induction children with
  | nil => exact ⟨none, rfl⟩
  | cons child others ih =>
    obtain ⟨first, later⟩ := List.forall_mem_cons.mp readable
    rw [firstOperation?]
    refine bind_succeeds first fun attributes => ?_
    split
    · split
      · exact ⟨_, rfl⟩
      · exact ih later
    · exact ih later

theorem localDeclarations_of_readable (taken : List String)
    (readable : ∀ child ∈ children, child.Readable) :
    ∃ lines, localDeclarations taken children = .ok lines := by
  induction children generalizing taken with
  | nil => exact ⟨[], rfl⟩
  | cons child others ih =>
    obtain ⟨first, later⟩ := List.forall_mem_cons.mp readable
    rw [localDeclarations]
    refine bind_succeeds first fun attributes => ?_
    split
    · split
      · exact ih _ later
      · exact bind_succeeds (ih _ later) fun lines => ⟨_, rfl⟩
    · exact ih _ later

theorem FunctionAttributes.bodyLines_of_readable (function : FunctionAttributes)
    (readable : ∀ child ∈ children, child.Readable) :
    ∃ lines, function.bodyLines children = .ok lines := by
  rw [bodyLines]
  split
  · exact ⟨_, rfl⟩
  · refine bind_succeeds (firstOperation?_of_readable readable) fun operation => ?_
    split
    · exact ⟨_, rfl⟩
    · split
      · exact ⟨_, rfl⟩
      · exact bind_succeeds (localDeclarations_of_readable _ readable) fun lines => ⟨_, rfl⟩

/-- A node that can be read has a block if those below it can be read too. -/
theorem Node.block_of_readable (first : node.Readable)
    (readable : ∀ child ∈ children, child.Readable) :
    ∃ block, node.block step children = .ok block := by
  rw [block]
  refine bind_succeeds first fun attributes => ?_
  split
  case h_3 function =>
    exact bind_succeeds (function.bodyLines_of_readable readable) fun lines => ⟨_, rfl⟩
  all_goals exact ⟨_, rfl⟩

end Readable

/-! ## Rendering -/

namespace Program

variable {step : Nat} {nodes others : List Node} {node : Node} {program program' : Program}

theorem forall₂_of_mapM {α β : Type} {items : List α} {f : α → Except Fault β} {results : List β}
    (found : items.mapM f = .ok results) :
    List.Forall₂ (fun item result => f item = .ok result) items results := by
  induction items generalizing results with
  | nil =>
    cases found
    exact .nil
  | cons item rest ih =>
    rw [List.mapM_cons] at found
    cases first : f item with
    | error fault =>
      rw [first] at found
      cases found
    | ok result =>
      rw [first] at found
      cases later : rest.mapM f with
      | error fault =>
        rw [later] at found
        cases found
      | ok results =>
        rw [later] at found
        cases found
        exact .cons first (ih later)

theorem exists_of_mapM_error {α β : Type} {items : List α} {f : α → Except Fault β}
    {fault : Fault} (failed : items.mapM f = .error fault) :
    ∃ item ∈ items, f item = .error fault := by
  induction items with
  | nil => cases failed
  | cons item rest ih =>
    rw [List.mapM_cons] at failed
    cases first : f item with
    | error other =>
      rw [first] at failed
      cases failed
      exact ⟨item, List.mem_cons_self .., first⟩
    | ok result =>
      rw [first] at failed
      cases later : rest.mapM f with
      | error other =>
        rw [later] at failed
        cases failed
        obtain ⟨found, member, same⟩ := ih later
        exact ⟨found, List.mem_cons_of_mem _ member, same⟩
      | ok results =>
        rw [later] at failed
        cases failed

/-- The ranges of a program are those of the nodes at the top level of a list, in order. They cover
the text, and in each of them stands the block that is made of its node and of those below it. -/
structure Shows (program : Program) (step : Nat) (nodes : List Node) : Prop where
  names : program.ranges.names = (nodes.filter Node.isTopLevel).map Node.id
  covers : Span.Covers program.text.toList 0 (List.map Prod.snd program.ranges)
  blocks : ∀ node ∈ nodes, node.isTopLevel = true → ∃ span,
    program.ranges.get? node.id = some span ∧
      node.block step (childrenOf nodes node.id) = .ok (span.slice program.text.toList)

theorem exists_of_forall₂ {α β : Type} {related : α → β → Prop} {as : List α} {bs : List β} {a : α}
    (found : List.Forall₂ related as bs) (member : a ∈ as) : ∃ b ∈ bs, related a b := by
  induction found with
  | nil => cases member
  | cons first later ih =>
    rcases List.mem_cons.mp member with rfl | behind
    · exact ⟨_, List.mem_cons_self .., first⟩
    · obtain ⟨b, inside, same⟩ := ih behind
      exact ⟨b, List.mem_cons_of_mem _ inside, same⟩

/-- What the blocks of a list say about its nodes, one by one. -/
theorem located_of_blocks {entries : List (String × String)}
    (found : blocks step nodes = .ok entries) :
    List.Forall₂ (fun node entry => entry.1 = node.id ∧
        node.block step (childrenOf nodes node.id) =
          .ok (Span.slice entry.2 (ofBlocks entries).text.toList))
      (nodes.filter Node.isTopLevel) (spansFrom 0 entries) := by
  have related := forall₂_of_mapM found
  have slices := slices_spansFrom [] entries
  rw [List.nil_append, ← toList_text] at slices
  rw [← slices, List.forall₂_map_right_iff] at related
  refine related.imp fun node entry shown => ?_
  cases block : node.block step (childrenOf nodes node.id) with
  | error fault =>
    rw [block] at shown
    cases shown
  | ok text =>
    rw [block] at shown
    obtain ⟨same, sliced⟩ := Prod.mk.inj (Except.ok.inj shown)
    exact ⟨same.symm, congrArg Except.ok sliced⟩

theorem shows_of_render (apart : (nodes.map Node.id).Nodup)
    (rendered : render step nodes = .ok program) : program.Shows step nodes := by
  rw [render] at rendered
  cases found : blocks step nodes with
  | error fault =>
    rw [found] at rendered
    cases rendered
  | ok entries =>
    rw [found] at rendered
    cases rendered
    have located := located_of_blocks found
    have names : (spansFrom 0 entries).map Prod.fst =
        (nodes.filter Node.isTopLevel).map Node.id := by
      have same : List.Forall₂ Eq ((spansFrom 0 entries).map Prod.fst)
          ((nodes.filter Node.isTopLevel).map Node.id) := by
        rw [List.forall₂_map_left_iff, List.forall₂_map_right_iff]
        exact (located.imp fun node entry shown => shown.1).flip
      rwa [List.forall₂_eq_eq_eq] at same
    have distinct : (Catalog.names (spansFrom 0 entries)).Nodup := by
      rw [Catalog.names, names]
      exact apart.sublist (List.filter_sublist.map Node.id)
    have ranges : (ofBlocks entries).ranges = spansFrom 0 entries :=
      Catalog.ofList_of_nodup distinct
    have covers := covers_spansFrom [] entries
    rw [List.nil_append, ← toList_text] at covers
    refine ⟨ranges ▸ names, ranges ▸ covers, fun node member top => ?_⟩
    obtain ⟨⟨id, span⟩, inside, rfl, block⟩ :=
      exists_of_forall₂ located (List.mem_filter.mpr ⟨member, top⟩)
    exact ⟨span, ranges ▸ Catalog.get?_of_mem distinct inside, block⟩

/-- A block stands alike in all lists with the same nodes below its node. -/
theorem Shows.shifted (shows : program.Shows step nodes) (shows' : program'.Shows step others)
    (member : node ∈ nodes) (member' : node ∈ others) (top : node.isTopLevel = true)
    (same : childrenOf others node.id = childrenOf nodes node.id) :
    ∃ span span', program.ranges.get? node.id = some span ∧
      program'.ranges.get? node.id = some span' ∧
      span'.slice program'.text.toList = span.slice program.text.toList ∧
      span'.start + span.stop = span.start + span'.stop := by
  obtain ⟨span, found, block⟩ := shows.blocks node member top
  obtain ⟨span', found', block'⟩ := shows'.blocks node member' top
  rw [same, block] at block'
  have alike := Except.ok.inj block'
  refine ⟨span, span', found, found', alike.symm, ?_⟩
  -- a span is as long as its block, since it lies in the text
  have length {program : Program} {nodes : List Node} {span : Span}
      (shows : program.Shows step nodes) (found : program.ranges.get? node.id = some span) :
      span.start + (span.slice program.text.toList).length = span.stop := by
    obtain ⟨upward, within⟩ := shows.covers.inside span
      (List.mem_map_of_mem (Catalog.mem_of_get? found))
    rw [Span.slice, String.length_ofList, List.length_take, List.length_drop]
    omega
  have one := length shows found
  have other := length shows' found'
  rw [← alike] at other
  omega

/-- Where there is no text, one of the blocks cannot be made. -/
theorem exists_of_render_error {fault : Fault} (failed : render step nodes = .error fault) :
    ∃ node ∈ nodes, node.isTopLevel = true ∧
      node.block step (childrenOf nodes node.id) = .error fault := by
  rw [render] at failed
  cases found : blocks step nodes with
  | ok entries =>
    rw [found] at failed
    cases failed
  | error other =>
    rw [found] at failed
    cases failed
    obtain ⟨node, member, stuck⟩ := exists_of_mapM_error found
    obtain ⟨member, top⟩ := List.mem_filter.mp member
    refine ⟨node, member, top, ?_⟩
    cases block : node.block step (childrenOf nodes node.id) with
    | ok text =>
      rw [block] at stuck
      cases stuck
    | error other =>
      rw [block] at stuck
      cases stuck
      rfl

theorem render_of_readable (readable : ∀ node ∈ nodes, node.Readable) :
    ∃ program, render step nodes = .ok program := by
  cases rendered : render step nodes with
  | ok program => exact ⟨program, rfl⟩
  | error fault =>
    obtain ⟨node, member, -, stuck⟩ := exists_of_render_error rendered
    have below : ∀ child ∈ childrenOf nodes node.id, child.Readable :=
      fun child below => readable child (List.mem_filter.mp below).1
    obtain ⟨block, made⟩ := Node.block_of_readable (readable node member) below
    rw [made] at stuck
    cases stuck

end Program

/-- The children index groups nodes by their parents. -/
theorem childrenIndex_eq (nodes : List Node) :
    childrenIndex nodes = Catalog.grouped Node.parent nodes := by
  refine congrArg (fun step => nodes.foldl step []) ?_
  funext index node
  cases node.parent <;> rfl

/-- The children index of a list finds the nodes below each parent, in the order of the list. -/
theorem get?_childrenIndex (nodes : List Node) (id : String) :
    ((childrenIndex nodes).get? id).getD [] = childrenOf nodes id := by
  rw [childrenIndex_eq, Catalog.get?_grouped]
  rfl

/-- The text of a list of nodes with ids of their own shows those at the top level, each by a block
that is made of the node and of those below it. So a node has the same block in every other list
that has the same nodes below it, in a range that is as long. If there is no text, then one of the
blocks cannot be made; where all nodes can be read, there is one. -/
theorem render_ranges (step : Nat) {nodes : List Node} (apart : (nodes.map Node.id).Nodup) :
    (∀ program, render step nodes = .ok program → program.Shows step nodes ∧
      ∀ others program', (others.map Node.id).Nodup → render step others = .ok program' →
        ∀ node ∈ nodes, node ∈ others → node.isTopLevel = true →
          childrenOf others node.id = childrenOf nodes node.id →
          ∃ span span', program.ranges.get? node.id = some span ∧
            program'.ranges.get? node.id = some span' ∧
            span'.slice program'.text.toList = span.slice program.text.toList ∧
            span'.start + span.stop = span.start + span'.stop) ∧
    (∀ fault, render step nodes = .error fault → ∃ node ∈ nodes, node.isTopLevel = true ∧
      node.block step (childrenOf nodes node.id) = .error fault) ∧
    ((∀ node ∈ nodes, node.Readable) → ∃ program, render step nodes = .ok program) := by
  refine ⟨fun program rendered => ?_, fun fault => Program.exists_of_render_error,
    Program.render_of_readable⟩
  have shows := Program.shows_of_render apart rendered
  refine ⟨shows, ?_⟩
  intro others program' apart' rendered' node member member' top same
  exact shows.shifted (Program.shows_of_render apart' rendered') member member' top same

/-- A function with an operation below it, and a variable. -/
def twoBlocks : List Node :=
  [⟨"total", .typed (.functionDecl { name := "total" }), none, none⟩,
    ⟨"sum", .typed (.binaryOp { left := some "1", right := some "2" }), some "total", none⟩,
    ⟨"rate", .typed (.variableDecl { name := "rate", initializer := some "3" }), none, none⟩]

/-- With the variable first, the block of the function is the same, 24 characters later. -/
theorem render_ranges_twoBlocks :
    ∃ program program', render 2 twoBlocks = .ok program ∧
      render 2 twoBlocks.reverse = .ok program' ∧
      program.ranges = [("total", ⟨0, 43⟩), ("rate", ⟨45, 67⟩)] ∧
      program'.ranges = [("rate", ⟨0, 22⟩), ("total", ⟨24, 67⟩)] ∧
      program.Shows 2 twoBlocks ∧
      ∃ span span', program.ranges.get? "total" = some span ∧
        program'.ranges.get? "total" = some span' ∧
        span'.slice program'.text.toList = span.slice program.text.toList ∧
        span'.start + span.stop = span.start + span'.stop := by
  have ranges := (render_ranges 2 (show (twoBlocks.map Node.id).Nodup by decide)).1 _ rfl
  refine ⟨_, _, rfl, rfl, rfl, rfl, ranges.1, ?_⟩
  exact ranges.2 twoBlocks.reverse _ (by decide) rfl _ (List.mem_cons_self ..) (by decide) rfl rfl

end SourceCanvas
