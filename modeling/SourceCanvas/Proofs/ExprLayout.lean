import SourceCanvas.Proofs.CursorLayout

/-!
# The layout of expressions

An expression that a reader gives is nested: its parts lie inside it, one after the other, and none
of them takes up all of it. The readers of expressions call each other, so what they give is stated
for all of them together (`Sound`) and proved by induction on the depth. Each reader has one lemma,
which takes for granted what the readers give that it goes on with.

What carries the induction is where the cursor stands. A reader starts at a cursor placed at an
offset; its expression starts there or later, and the cursor after it is placed at its end.
-/

namespace SourceCanvas

/-! ## Rows of spans -/

/-- Spans that lie one after the other between two offsets. None of them is empty. -/
def InRow (hi : Nat) : Nat → List Span → Prop
  | lo, [] => lo ≤ hi
  | lo, span :: others => lo ≤ span.start ∧ span.start < span.stop ∧ InRow hi span.stop others

namespace InRow

variable {lo lo' mid hi hi' : Nat} {span : Span} {spans others : List Span}

theorem le (row : InRow hi lo spans) : lo ≤ hi := by
  induction spans generalizing lo with
  | nil => exact row
  | cons span spans ih =>
    obtain ⟨start, filled, row⟩ := row
    have := ih row
    omega

theorem weaken (row : InRow hi lo spans) (le : lo' ≤ lo) : InRow hi lo' spans := by
  cases spans with
  | nil => exact Nat.le_trans le row
  | cons span spans => exact ⟨Nat.le_trans le row.1, row.2⟩

theorem extend (row : InRow hi lo spans) (le : hi ≤ hi') : InRow hi' lo spans := by
  induction spans generalizing lo with
  | nil => exact Nat.le_trans row le
  | cons span spans ih => exact ⟨row.1, row.2.1, ih row.2.2⟩

theorem append (row : InRow mid lo spans) (row' : InRow hi mid others) :
    InRow hi lo (spans ++ others) := by
  induction spans generalizing lo with
  | nil => exact row'.weaken row
  | cons span spans ih => exact ⟨row.1, row.2.1, ih row.2.2⟩

theorem bounds (row : InRow hi lo spans) (member : span ∈ spans) :
    lo ≤ span.start ∧ span.start < span.stop ∧ span.stop ≤ hi := by
  induction spans generalizing lo with
  | nil => cases member
  | cons first spans ih =>
    obtain ⟨start, filled, row⟩ := row
    rcases List.mem_cons.mp member with rfl | member
    · exact ⟨start, filled, row.le⟩
    · obtain ⟨start', filled', stop⟩ := ih row member
      exact ⟨by omega, filled', stop⟩

end InRow

/-- Things that lie one after the other between two offsets, with a condition that holds of each. -/
def RowOf {α : Type} (place : α → Span) (Good : α → Prop) (lo hi : Nat) (items : List α) : Prop :=
  InRow hi lo (items.map place) ∧ ∀ item ∈ items, Good item

namespace RowOf

variable {α : Type} {place : α → Span} {Good : α → Prop} {lo lo' mid hi hi' : Nat} {item : α}
  {items others : List α}

theorem nil (le : lo ≤ hi) : RowOf place Good lo hi [] := ⟨le, by simp⟩

theorem cons (start : lo ≤ (place item).start) (filled : (place item).start < (place item).stop)
    (good : Good item) (row : RowOf place Good (place item).stop hi items) :
    RowOf place Good lo hi (item :: items) := by
  refine ⟨⟨start, filled, row.1⟩, ?_⟩
  intro other member
  rcases List.mem_cons.mp member with rfl | member
  · exact good
  · exact row.2 other member

theorem weaken (row : RowOf place Good lo hi items) (le : lo' ≤ lo) :
    RowOf place Good lo' hi items :=
  ⟨row.1.weaken le, row.2⟩

theorem extend (row : RowOf place Good lo hi items) (le : hi ≤ hi') :
    RowOf place Good lo hi' items :=
  ⟨row.1.extend le, row.2⟩

theorem append (row : RowOf place Good lo mid items) (row' : RowOf place Good mid hi others) :
    RowOf place Good lo hi (items ++ others) := by
  refine ⟨?_, ?_⟩
  · rw [List.map_append]
    exact row.1.append row'.1
  · intro item member
    rcases List.mem_append.mp member with member | member
    · exact row.2 item member
    · exact row'.2 item member

theorem bounds (row : RowOf place Good lo hi items) (member : item ∈ items) :
    lo ≤ (place item).start ∧ (place item).start < (place item).stop ∧ (place item).stop ≤ hi :=
  row.1.bounds (List.mem_map_of_mem member)

end RowOf

namespace Expr

open Cursor (Placed)

/-! ## Nested expressions -/

/-- An expression that is not empty and whose parts lie one after the other inside it, each of them
smaller than the whole. -/
inductive Nested : Expr → Prop where
  | mk {form : Form} {span : Span} {parts : List Expr} (filled : span.start < span.stop)
      (row : InRow span.stop span.start (parts.map Expr.span))
      (smaller : ∀ part ∈ parts, part.span ≠ span) (nested : ∀ part ∈ parts, Nested part) :
      Nested (.mk form span parts)

/-- Nested expressions that lie one after the other between two offsets. -/
abbrev Row (lo hi : Nat) (exprs : List Expr) : Prop := RowOf Expr.span Nested lo hi exprs

variable {lo lo' hi : Nat} {expr first : Expr} {exprs : List Expr} {form : Form} {span : Span}
  {parts : List Expr}

theorem Nested.filled (nested : expr.Nested) : expr.start < expr.stop := by
  obtain ⟨filled, -, -, -⟩ := nested
  exact filled

theorem Row.cons (start : lo ≤ expr.start) (nested : expr.Nested) (row : Row expr.stop hi exprs) :
    Row lo hi (expr :: exprs) :=
  RowOf.cons start nested.filled nested row

/-- An expression is nested if its parts lie behind its start. -/
theorem Nested.behind (start : span.start < lo) (row : Row lo span.stop parts) :
    Nested (.mk form span parts) := by
  have := row.1.le
  refine .mk (by omega) (row.1.weaken (by omega)) ?_ row.2
  intro part member same
  have := (row.bounds member).1
  rw [same] at this
  omega

/-- An expression is nested if it starts with a part that ends before it does, and the other parts
lie behind that one. -/
theorem Nested.beside {stop : Nat} (nested : first.Nested) (shorter : first.stop < stop)
    (row : Row first.stop stop parts) :
    Nested (.mk form ⟨first.start, stop⟩ (first :: parts)) := by
  have filled := nested.filled
  obtain ⟨inRow, all⟩ := Row.cons (Nat.le_refl _) nested row
  refine .mk (by show first.start < stop; omega) inRow ?_ all
  intro part member same
  rcases List.mem_cons.mp member with rfl | member
  · have stops : part.stop = stop := by rw [Expr.stop, same]
    omega
  · have starts : part.span.start = first.start := by rw [same]
    have := (row.bounds member).1
    omega

/-! ## What readers give -/

/-- What is known of an expression and the cursor after it. -/
structure ReadFrom (fence : Token) (lo : Nat) (expr : Expr) (after : Cursor) : Prop where
  start : lo ≤ expr.start
  nested : expr.Nested
  placed : Placed fence expr.stop after

namespace ReadFrom

variable {fence : Token} {after : Cursor}

theorem weaken (found : ReadFrom fence lo expr after) (le : lo' ≤ lo) :
    ReadFrom fence lo' expr after :=
  ⟨Nat.le_trans le found.start, found.nested, found.placed⟩

theorem row (found : ReadFrom fence lo expr after) (le : expr.stop ≤ hi) : Row lo hi [expr] :=
  .cons found.start found.nested (.nil le)

end ReadFrom

/-- A reader of expressions. -/
def Reads (fence : Token) (reader : Cursor → Option (Expr × Cursor)) : Prop :=
  ∀ {lo : Nat} {cursor after : Cursor} {expr : Expr}, Placed fence lo cursor →
    reader cursor = some (expr, after) → ReadFrom fence lo expr after

/-- A reader that goes on after an expression. -/
def GoesOn (fence : Token) (reader : Expr → Cursor → Option (Expr × Cursor)) : Prop :=
  ∀ {cursor after : Cursor} {left expr : Expr}, reader left cursor = some (expr, after) →
    left.Nested → Placed fence left.stop cursor → ReadFrom fence left.start expr after

/-- A reader of a list of expressions. -/
def ReadsRow (fence : Token) (reader : Cursor → Option (List Expr × Cursor)) : Prop :=
  ∀ {lo : Nat} {cursor after : Cursor} {exprs : List Expr}, Placed fence lo cursor →
    reader cursor = some (exprs, after) → ∃ mid, Row lo mid exprs ∧ Placed fence mid after

/-- A reader whose result is no expression. -/
def Passes {α : Type} (fence : Token) (reader : Cursor → Option (α × Cursor)) : Prop :=
  ∀ {lo : Nat} {cursor after : Cursor} {result : α}, Placed fence lo cursor →
    reader cursor = some (result, after) → Placed fence lo after

/-- What readers of expressions give before a given fence. -/
structure Sound (fence : Token) (next : Readers) : Prop where
  assignment : Reads fence (next .assignment)
  arrow : Reads fence (next .arrow)
  conditional : Reads fence (next .conditional)
  binary (least : Nat) : Reads fence (next (.binary least))
  binaryTail (least : Nat) : GoesOn fence fun left => next (.binaryTail least left)
  unary : Reads fence (next .unary)
  callMember : Reads fence (next .callMember)
  memberPath : GoesOn fence fun target => next (.memberPath target)
  memberTail : GoesOn fence fun expr => next (.memberTail expr)
  optionalTail : GoesOn fence fun expr => next (.optionalTail expr)
  arguments {lo : Nat} {cursor after : Cursor} {args : List Expr} {closer : Token} :
    Placed fence lo cursor → next .arguments cursor = some ((args, closer), after) →
      lo < closer.stop ∧ Row lo closer.stop args ∧ Placed fence closer.stop after
  argumentTail : ReadsRow fence (next .argumentTail)
  element : Reads fence (next .element)
  primary : Reads fence (next .primary)
  functionExpression {lo : Nat} {cursor after : Cursor} {expr : Expr} :
    ¬cursor.peek.Closes → Placed fence lo cursor →
      next .functionExpression cursor = some (expr, after) → ReadFrom fence lo expr after
  arrayTail : ReadsRow fence (next .arrayTail)
  objectTail {lo : Nat} {cursor after : Cursor} {properties : List (String × Option Span)}
    {values : List Expr} : Placed fence lo cursor →
      next .objectTail cursor = some ((properties, values), after) →
      ∃ mid, Row lo mid values ∧ Placed fence mid after
  objectEntry {lo : Nat} {cursor after : Cursor} {property : Option (String × Option Span)}
    {value : Option Expr} : Placed fence lo cursor →
      next .objectEntry cursor = some ((property, value), after) →
      ∃ mid, Row lo mid value.toList ∧ Placed fence mid after
  parameterList : Passes fence (next .parameterList)
  parameterTail : Passes fence (next .parameterTail)
  parameter : Passes fence (next .parameter)
  decorators : Passes fence (next .decorators)

namespace Sound

variable {fence : Token} {next : Readers}

/-- Readers that give nothing give nothing wrong. -/
theorem none : Sound fence fun _ _ => none where
  assignment _ read := by cases read
  arrow _ read := by cases read
  conditional _ read := by cases read
  binary _ := fun _ read => by cases read
  binaryTail _ := fun read => by cases read
  unary _ read := by cases read
  callMember _ read := by cases read
  memberPath read := by cases read
  memberTail read := by cases read
  optionalTail read := by cases read
  arguments _ read := by cases read
  argumentTail _ read := by cases read
  element _ read := by cases read
  primary _ read := by cases read
  functionExpression _ _ read := by cases read
  arrayTail _ read := by cases read
  objectTail _ read := by cases read
  objectEntry _ read := by cases read
  parameterList _ read := by cases read
  parameterTail _ read := by cases read
  parameter _ read := by cases read
  decorators _ read := by cases read

/-! ## One reader at a time -/

variable (sound : Sound fence next) (closed : fence.Closes)
include sound closed

theorem assignment_step : Reads fence (Expr.assignment next) := by
  intro lo cursor after expr placed read
  rw [Expr.assignment] at read
  split at read
  · exact sound.arrow placed read
  · obtain ⟨⟨left, middle⟩, leftRead, read⟩ := Option.bind_eq_some_iff.mp read
    have left := sound.conditional placed leftRead
    simp only at read
    split at read
    · next operator =>
      obtain ⟨⟨right, rest⟩, rightRead, read⟩ := Option.bind_eq_some_iff.mp read
      cases read
      obtain ⟨start, filled, placed⟩ :=
        left.placed.step closed (Token.not_closes_of_isPunctIn operator (by decide))
      have right := sound.assignment placed rightRead
      have := left.nested.filled
      refine ⟨left.start, .behind ?_ (right.row (Nat.le_refl _)), right.placed⟩
      simp only
      omega
    · cases read
      exact left

theorem arrow_step : Reads fence (Expr.arrow next) := by
  intro lo cursor after expr placed read
  rw [Expr.arrow] at read
  simp only at read
  obtain ⟨⟨last, rest⟩, parametersRead, read⟩ := Option.bind_eq_some_iff.mp read
  -- The arrow function starts with the word before its parameters, or with them.
  have opens : lo ≤ cursor.peek.start ∧ Placed fence cursor.peek.start
      (if (cursor.peek.isWord "async" && !(cursor.peekAt 1).isPunct "=>") = true then cursor.advance
      else cursor) := by
    split
    · next marked =>
      have word : cursor.peek.isWord "async" = true := by
        rw [Bool.and_eq_true] at marked
        exact marked.1
      obtain ⟨start, filled, placed⟩ := placed.step closed
        (Token.not_closes_of_identifier (Token.kind_of_isWord word))
      exact ⟨start, placed.weaken (by omega)⟩
    · next unmarked =>
      rw [if_neg unmarked] at parametersRead
      exact placed.here closed (Cursor.not_closes_of_arrowParameters parametersRead)
  obtain ⟨start, placed⟩ := opens
  obtain ⟨behind, placed⟩ := placed.arrowParameters closed parametersRead
  obtain ⟨rest, typeRead, read⟩ := Option.bind_eq_some_iff.mp read
  obtain ⟨⟨mark, rest⟩, markRead, read⟩ := Option.bind_eq_some_iff.mp read
  obtain ⟨behind', placed⟩ := (placed.arrowType typeRead).expectPunct markRead
  simp only at read
  split at read
  · obtain ⟨⟨closer, rest⟩, bodyRead, read⟩ := Option.bind_eq_some_iff.mp read
    cases read
    obtain ⟨behind'', placed⟩ := placed.balanced bodyRead
    exact ⟨start, .behind behind (.nil (by show last.stop ≤ closer.stop; omega)), placed⟩
  · obtain ⟨⟨body, rest⟩, bodyRead, read⟩ := Option.bind_eq_some_iff.mp read
    cases read
    have body := sound.assignment placed bodyRead
    exact ⟨start, .behind behind ((body.row (Nat.le_refl _)).weaken behind'), body.placed⟩

omit closed in
theorem conditional_step : Reads fence (Expr.conditional next) := by
  intro lo cursor after expr placed read
  rw [Expr.conditional] at read
  obtain ⟨⟨test, rest⟩, testRead, read⟩ := Option.bind_eq_some_iff.mp read
  have test := sound.binary 1 placed testRead
  simp only at read
  split at read
  · next mark =>
    obtain ⟨⟨whenTrue, rest⟩, trueRead, read⟩ := Option.bind_eq_some_iff.mp read
    obtain ⟨⟨colon, rest⟩, colonRead, read⟩ := Option.bind_eq_some_iff.mp read
    obtain ⟨⟨whenFalse, rest⟩, falseRead, read⟩ := Option.bind_eq_some_iff.mp read
    cases read
    have whenTrue := sound.assignment test.placed.advance trueRead
    obtain ⟨between, placed⟩ := whenTrue.placed.expectPunct colonRead
    have whenFalse := sound.assignment placed falseRead
    have := whenTrue.nested.filled
    have := whenFalse.nested.filled
    have := whenTrue.start
    have := whenFalse.start
    refine ⟨test.start, .beside test.nested ?_ ?_, whenFalse.placed⟩
    · simp only
      omega
    · exact .cons whenTrue.start whenTrue.nested
        ((whenFalse.row (Nat.le_refl _)).weaken between)
  · cases read
    exact test

omit closed in
theorem binary_step (least : Nat) : Reads fence (Expr.binary next least) := by
  intro lo cursor after expr placed read
  rw [Expr.binary] at read
  obtain ⟨⟨left, rest⟩, leftRead, read⟩ := Option.bind_eq_some_iff.mp read
  have left := sound.unary placed leftRead
  exact (sound.binaryTail least read left.nested left.placed).weaken left.start

theorem binaryTail_step (least : Nat) : GoesOn fence (Expr.binaryTail next least) := by
  intro cursor after left expr read nested placed
  rw [Expr.binaryTail] at read
  simp only at read
  split at read
  · obtain ⟨⟨stop, rest⟩, typeRead, read⟩ := Option.bind_eq_some_iff.mp read
    obtain ⟨behind, placed⟩ := placed.advance.assertedType closed typeRead
    have whole := sound.binaryTail least read (.beside nested behind (.nil (by omega))) placed
    exact whole
  split at read
  · cases read
    exact ⟨Nat.le_refl _, nested, placed⟩
  split at read
  · cases read
    exact ⟨Nat.le_refl _, nested, placed⟩
  · obtain ⟨⟨right, rest⟩, rightRead, read⟩ := Option.bind_eq_some_iff.mp read
    simp only at read
    have right := sound.binary _ placed.advance rightRead
    have := right.start
    have := right.nested.filled
    have whole := sound.binaryTail least read
      (.beside nested (by omega) (right.row (Nat.le_refl _))) right.placed
    exact whole

theorem unary_step : Reads fence (Expr.unary next) := by
  intro lo cursor after expr placed read
  rw [Expr.unary] at read
  simp only at read
  split at read
  · next operator =>
    obtain ⟨start, filled, placed⟩ := placed.step closed (Token.not_closes_of_unary operator)
    obtain ⟨⟨operand, rest⟩, operandRead, read⟩ := Option.bind_eq_some_iff.mp read
    have operand := sound.unary placed operandRead
    have := operand.start
    have := operand.nested.filled
    simp only at read
    split at read
    · cases read
      exact ⟨start, .behind filled (.nil (by simp only; omega)), operand.placed⟩
    · cases read
      exact ⟨start, .behind filled (operand.row (Nat.le_refl _)), operand.placed⟩
  split at read
  · cases read
  · obtain ⟨⟨inner, rest⟩, innerRead, read⟩ := Option.bind_eq_some_iff.mp read
    have inner := sound.callMember placed innerRead
    simp only at read
    split at read
    · next marked =>
      cases read
      have mark := (Bool.and_eq_true _ _ ▸ marked).1
      obtain ⟨start, filled, placed⟩ :=
        inner.placed.step closed (Token.not_closes_of_isPunctIn mark (by decide))
      exact ⟨inner.start, .beside inner.nested (by omega) (.nil (by omega)), placed⟩
    · cases read
      exact inner

theorem callMember_step : Reads fence (Expr.callMember next) := by
  intro lo cursor after expr placed read
  rw [Expr.callMember] at read
  simp only at read
  split at read
  · next marked =>
    have word := (Bool.and_eq_true _ _ ▸ marked).1
    obtain ⟨start, filled, placed⟩ := placed.step closed
      (Token.not_closes_of_identifier (Token.kind_of_isWord word))
    obtain ⟨⟨first, rest⟩, firstRead, read⟩ := Option.bind_eq_some_iff.mp read
    obtain ⟨⟨target, rest⟩, targetRead, read⟩ := Option.bind_eq_some_iff.mp read
    have first := sound.primary placed firstRead
    have target := sound.memberPath targetRead first.nested first.placed
    have start' := Nat.le_trans first.start target.start
    simp only at read
    split at read
    · obtain ⟨⟨⟨args, closer⟩, rest⟩, argsRead, read⟩ := Option.bind_eq_some_iff.mp read
      obtain ⟨behind, args, placed⟩ := sound.arguments target.placed argsRead
      have whole := sound.memberTail read
        (.behind filled (.cons start' target.nested args)) placed
      exact whole.weaken start
    · have whole := sound.memberTail read
        (.behind filled (.cons start' target.nested (.nil (Nat.le_refl _)))) target.placed
      exact whole.weaken start
  · obtain ⟨⟨first, rest⟩, firstRead, read⟩ := Option.bind_eq_some_iff.mp read
    have first := sound.primary placed firstRead
    exact (sound.memberTail read first.nested first.placed).weaken first.start

theorem memberPath_step : GoesOn fence (Expr.memberPath next) := by
  intro cursor after left expr read nested placed
  rw [Expr.memberPath] at read
  split at read
  · obtain ⟨⟨name, rest⟩, nameRead, read⟩ := Option.bind_eq_some_iff.mp read
    obtain ⟨start, filled, placed⟩ := placed.advance.memberName closed nameRead
    have shorter : left.stop < name.stop := by omega
    have whole := sound.memberPath read (.beside nested shorter (.nil (by omega))) placed
    exact whole
  · cases read
    exact ⟨Nat.le_refl _, nested, placed⟩

theorem memberTail_step : GoesOn fence (Expr.memberTail next) := by
  intro cursor after left expr read nested placed
  rw [Expr.memberTail] at read
  simp only at read
  split at read
  · obtain ⟨⟨name, rest⟩, nameRead, read⟩ := Option.bind_eq_some_iff.mp read
    simp only at read
    obtain ⟨start, filled, placed⟩ := placed.advance.memberName closed nameRead
    have shorter : left.stop < name.stop := by omega
    have whole := sound.memberTail read (.beside nested shorter (.nil (by omega))) placed
    exact whole
  split at read
  · exact sound.optionalTail read nested placed.advance
  split at read
  · obtain ⟨⟨⟨args, closer⟩, rest⟩, argsRead, read⟩ := Option.bind_eq_some_iff.mp read
    obtain ⟨behind, args, placed⟩ := sound.arguments placed argsRead
    have whole := sound.memberTail read (.beside nested behind args) placed
    exact whole
  split at read
  · next rest typesRead =>
    split at typesRead
    · exact sound.memberTail read nested
        (placed.suffix ((Extent.typeArguments?_suffix typesRead).trans (List.tail_suffix _)))
    · cases typesRead
  split at read
  · next opener =>
    obtain ⟨start, filled, placed⟩ :=
      placed.step closed (Token.not_closes_of_isPunct opener (by decide))
    obtain ⟨⟨index, rest⟩, indexRead, read⟩ := Option.bind_eq_some_iff.mp read
    obtain ⟨⟨closer, rest⟩, closerRead, read⟩ := Option.bind_eq_some_iff.mp read
    simp only at read
    have index := sound.assignment placed indexRead
    obtain ⟨behind, placed⟩ := index.placed.expectPunct closerRead
    have := index.start
    have := index.nested.filled
    have whole := sound.memberTail read
      (.beside nested (by omega) ((index.row behind).weaken (by omega))) placed
    exact whole
  split at read
  · next mark =>
    obtain ⟨start, filled, placed⟩ := placed.step closed (Token.not_closes_of_suffix mark)
    have shorter : left.stop < cursor.peek.stop := by omega
    have whole := sound.memberTail read (.beside nested shorter (.nil (by omega))) placed
    exact whole
  · cases read
    exact ⟨Nat.le_refl _, nested, placed⟩

theorem optionalTail_step : GoesOn fence (Expr.optionalTail next) := by
  intro cursor after left expr read nested placed
  rw [Expr.optionalTail] at read
  split at read
  · obtain ⟨⟨⟨args, closer⟩, rest⟩, argsRead, read⟩ := Option.bind_eq_some_iff.mp read
    obtain ⟨behind, args, placed⟩ := sound.arguments placed argsRead
    have whole := sound.memberTail read (.beside nested behind args) placed
    exact whole
  split at read
  · next opener =>
    obtain ⟨start, filled, placed⟩ :=
      placed.step closed (Token.not_closes_of_isPunct opener (by decide))
    obtain ⟨⟨index, rest⟩, indexRead, read⟩ := Option.bind_eq_some_iff.mp read
    obtain ⟨⟨closer, rest⟩, closerRead, read⟩ := Option.bind_eq_some_iff.mp read
    simp only at read
    have index := sound.assignment placed indexRead
    obtain ⟨behind, placed⟩ := index.placed.expectPunct closerRead
    have := index.start
    have := index.nested.filled
    have whole := sound.memberTail read
      (.beside nested (by omega) ((index.row behind).weaken (by omega))) placed
    exact whole
  · obtain ⟨⟨name, rest⟩, nameRead, read⟩ := Option.bind_eq_some_iff.mp read
    simp only at read
    obtain ⟨start, filled, placed⟩ := placed.memberName closed nameRead
    have shorter : left.stop < name.stop := by omega
    have whole := sound.memberTail read (.beside nested shorter (.nil (by omega))) placed
    exact whole

theorem arguments_step {lo : Nat} {cursor after : Cursor} {args : List Expr} {closer : Token}
    (placed : Placed fence lo cursor)
    (read : Expr.arguments next cursor = some ((args, closer), after)) :
    lo < closer.stop ∧ Row lo closer.stop args ∧ Placed fence closer.stop after := by
  rw [Expr.arguments] at read
  obtain ⟨⟨opener, rest⟩, openerRead, read⟩ := Option.bind_eq_some_iff.mp read
  obtain ⟨⟨exprs, rest⟩, argsRead, read⟩ := Option.bind_eq_some_iff.mp read
  obtain ⟨⟨last, rest⟩, closerRead, read⟩ := Option.bind_eq_some_iff.mp read
  cases read
  obtain ⟨start, filled, placed⟩ := placed.expectInside closed (by decide) openerRead
  obtain ⟨mid, row, placed⟩ := sound.argumentTail placed argsRead
  obtain ⟨behind, placed⟩ := placed.expectPunct closerRead
  have := row.1.le
  exact ⟨by omega, (row.extend behind).weaken (by omega), placed⟩

omit closed in
theorem argumentTail_step : ReadsRow fence (Expr.argumentTail next) := by
  intro lo cursor after exprs placed read
  rw [Expr.argumentTail] at read
  split at read
  · cases read
    exact ⟨lo, .nil (Nat.le_refl _), placed⟩
  · obtain ⟨⟨first, rest⟩, firstRead, read⟩ := Option.bind_eq_some_iff.mp read
    have first := sound.element placed firstRead
    simp only at read
    split at read
    · obtain ⟨⟨others, rest⟩, othersRead, read⟩ := Option.bind_eq_some_iff.mp read
      cases read
      obtain ⟨mid, row, placed⟩ := sound.argumentTail first.placed.advance othersRead
      exact ⟨mid, .cons first.start first.nested row, placed⟩
    split at read
    · cases read
      exact ⟨_, first.row (Nat.le_refl _), first.placed⟩
    · cases read

theorem element_step : Reads fence (Expr.element next) := by
  intro lo cursor after expr placed read
  rw [Expr.element] at read
  split at read
  · next dots =>
    obtain ⟨start, filled, placed⟩ :=
      placed.step closed (Token.not_closes_of_isPunct dots (by decide))
    obtain ⟨⟨inner, rest⟩, innerRead, read⟩ := Option.bind_eq_some_iff.mp read
    cases read
    have inner := sound.assignment placed innerRead
    exact ⟨start, .behind filled (inner.row (Nat.le_refl _)), inner.placed⟩
  · exact sound.assignment placed read

omit sound in
theorem leaf {lo : Nat} {cursor after : Cursor} {expr : Expr} {form : Form}
    (placed : Placed fence lo cursor) (inside : ¬cursor.peek.Closes)
    (read : some (Expr.leaf form cursor.peek, cursor.advance) = some (expr, after)) :
    ReadFrom fence lo expr after := by
  cases read
  obtain ⟨start, filled, placed⟩ := placed.step closed inside
  exact ⟨start, .behind filled (.nil (Nat.le_refl _)), placed⟩

theorem primary_step : Reads fence (Expr.primary next) := by
  intro lo cursor after expr placed read
  rw [Expr.primary] at read
  simp only at read
  split at read
  · next word =>
    have inside := Token.not_closes_of_identifier word
    split at read
    · exact leaf closed placed inside read
    split at read
    · exact sound.functionExpression inside placed read
    split at read
    · cases read
    · exact leaf closed placed inside read
  · next number =>
    exact leaf closed placed (Token.not_closes_of_kind number (by decide)) read
  · next string =>
    exact leaf closed placed (Token.not_closes_of_kind string (by decide)) read
  · next template =>
    exact leaf closed placed (Token.not_closes_of_kind template (by decide)) read
  · next regex =>
    exact leaf closed placed (Token.not_closes_of_kind regex (by decide)) read
  · next punct =>
    split at read
    · next opener =>
      obtain ⟨start, filled, placed⟩ :=
        placed.step closed (Token.not_closes_of_value punct (by rw [opener]; decide))
      obtain ⟨⟨inner, rest⟩, innerRead, read⟩ := Option.bind_eq_some_iff.mp read
      obtain ⟨⟨closer, rest⟩, closerRead, read⟩ := Option.bind_eq_some_iff.mp read
      cases read
      have inner := sound.assignment placed innerRead
      obtain ⟨behind, placed⟩ := inner.placed.expectPunct closerRead
      exact ⟨start, .behind filled (inner.row behind), placed⟩
    split at read
    · next opener =>
      obtain ⟨start, filled, placed⟩ :=
        placed.step closed (Token.not_closes_of_value punct (by rw [opener]; decide))
      obtain ⟨⟨elements, rest⟩, elementsRead, read⟩ := Option.bind_eq_some_iff.mp read
      obtain ⟨⟨closer, rest⟩, closerRead, read⟩ := Option.bind_eq_some_iff.mp read
      cases read
      obtain ⟨mid, row, placed⟩ := sound.arrayTail placed elementsRead
      obtain ⟨behind, placed⟩ := placed.expectPunct closerRead
      exact ⟨start, .behind filled (row.extend behind), placed⟩
    split at read
    · next opener =>
      obtain ⟨start, filled, placed⟩ :=
        placed.step closed (Token.not_closes_of_value punct (by rw [opener]; decide))
      obtain ⟨⟨⟨properties, values⟩, rest⟩, valuesRead, read⟩ := Option.bind_eq_some_iff.mp read
      obtain ⟨⟨closer, rest⟩, closerRead, read⟩ := Option.bind_eq_some_iff.mp read
      cases read
      obtain ⟨mid, row, placed⟩ := sound.objectTail placed valuesRead
      obtain ⟨behind, placed⟩ := placed.expectPunct closerRead
      exact ⟨start, .behind filled (row.extend behind), placed⟩
    · cases read
  · cases read

theorem functionExpression_step {lo : Nat} {cursor after : Cursor} {expr : Expr}
    (inside : ¬cursor.peek.Closes) (placed : Placed fence lo cursor)
    (read : Expr.functionExpression next cursor = some (expr, after)) :
    ReadFrom fence lo expr after := by
  rw [Expr.functionExpression] at read
  simp only at read
  obtain ⟨start, placed⟩ := placed.here closed inside
  obtain ⟨rest, typesRead, read⟩ := Option.bind_eq_some_iff.mp read
  obtain ⟨⟨parameters, rest⟩, parametersRead, read⟩ := Option.bind_eq_some_iff.mp read
  obtain ⟨⟨result, rest⟩, resultRead, read⟩ := Option.bind_eq_some_iff.mp read
  obtain ⟨⟨closer, rest⟩, bodyRead, read⟩ := Option.bind_eq_some_iff.mp read
  cases read
  have placed := sound.parameterList
    (placed.advance_if.advance.skipPunct.advance_if.typeParameters typesRead) parametersRead
  obtain ⟨behind, placed⟩ := (placed.resultType resultRead).closedBody bodyRead
  exact ⟨start, .behind behind (.nil (Nat.le_refl _)), placed⟩

omit closed in
theorem arrayTail_step : ReadsRow fence (Expr.arrayTail next) := by
  intro lo cursor after exprs placed read
  rw [Expr.arrayTail] at read
  split at read
  · cases read
    exact ⟨lo, .nil (Nat.le_refl _), placed⟩
  split at read
  · exact sound.arrayTail placed.advance read
  · obtain ⟨⟨first, rest⟩, firstRead, read⟩ := Option.bind_eq_some_iff.mp read
    have first := sound.element placed firstRead
    simp only at read
    split at read
    · obtain ⟨⟨others, rest⟩, othersRead, read⟩ := Option.bind_eq_some_iff.mp read
      cases read
      obtain ⟨mid, row, placed⟩ := sound.arrayTail first.placed othersRead
      exact ⟨mid, .cons first.start first.nested row, placed⟩
    · cases read

omit closed in
theorem objectTail_step {lo : Nat} {cursor after : Cursor}
    {properties : List (String × Option Span)} {values : List Expr}
    (placed : Placed fence lo cursor)
    (read : Expr.objectTail next cursor = some ((properties, values), after)) :
    ∃ mid, Row lo mid values ∧ Placed fence mid after := by
  rw [Expr.objectTail] at read
  split at read
  · cases read
    exact ⟨lo, .nil (Nat.le_refl _), placed⟩
  · obtain ⟨⟨⟨property, value⟩, rest⟩, entryRead, read⟩ := Option.bind_eq_some_iff.mp read
    obtain ⟨mid, row, placed⟩ := sound.objectEntry placed entryRead
    simp only at read
    split at read
    · obtain ⟨⟨⟨properties', values'⟩, rest⟩, othersRead, read⟩ := Option.bind_eq_some_iff.mp read
      cases read
      obtain ⟨last, row', placed⟩ := sound.objectTail placed.advance othersRead
      exact ⟨last, row.append row', placed⟩
    split at read
    · cases read
      exact ⟨mid, row, placed⟩
    · cases read

omit closed in
theorem objectEntry_step {lo : Nat} {cursor after : Cursor}
    {property : Option (String × Option Span)} {value : Option Expr}
    (placed : Placed fence lo cursor)
    (read : Expr.objectEntry next cursor = some ((property, value), after)) :
    ∃ mid, Row lo mid value.toList ∧ Placed fence mid after := by
  rw [Expr.objectEntry] at read
  split at read
  · obtain ⟨⟨inner, rest⟩, innerRead, read⟩ := Option.bind_eq_some_iff.mp read
    cases read
    have inner := sound.assignment placed.advance innerRead
    exact ⟨_, inner.row (Nat.le_refl _), inner.placed⟩
  · obtain ⟨⟨key, rest⟩, keyRead, read⟩ := Option.bind_eq_some_iff.mp read
    have placed := placed.objectKey keyRead
    simp only at read
    split at read
    · obtain ⟨⟨inner, rest⟩, innerRead, read⟩ := Option.bind_eq_some_iff.mp read
      cases read
      have inner := sound.assignment placed.advance innerRead
      exact ⟨_, inner.row (Nat.le_refl _), inner.placed⟩
    split at read
    · obtain ⟨rest, typesRead, read⟩ := Option.bind_eq_some_iff.mp read
      obtain ⟨⟨parameters, rest⟩, parametersRead, read⟩ := Option.bind_eq_some_iff.mp read
      obtain ⟨⟨result, rest⟩, resultRead, read⟩ := Option.bind_eq_some_iff.mp read
      obtain ⟨⟨closer, rest⟩, bodyRead, read⟩ := Option.bind_eq_some_iff.mp read
      cases read
      have placed := sound.parameterList (placed.typeParameters typesRead) parametersRead
      obtain ⟨behind, placed⟩ := (placed.resultType resultRead).closedBody bodyRead
      exact ⟨_, .nil (by omega), placed⟩
    split at read
    · cases read
      exact ⟨lo, .nil (Nat.le_refl _), placed⟩
    · cases read

omit closed in
theorem parameterList_step : Passes fence (Expr.parameterList next) := by
  intro lo cursor after parameters placed read
  rw [Expr.parameterList] at read
  obtain ⟨⟨opener, rest⟩, openerRead, read⟩ := Option.bind_eq_some_iff.mp read
  obtain ⟨⟨parameters, rest⟩, parametersRead, read⟩ := Option.bind_eq_some_iff.mp read
  obtain ⟨⟨closer, rest⟩, closerRead, read⟩ := Option.bind_eq_some_iff.mp read
  cases read
  obtain ⟨behind, placed⟩ := placed.expectPunct openerRead
  obtain ⟨behind', placed⟩ := (sound.parameterTail placed parametersRead).expectPunct closerRead
  exact placed.weaken (by omega)

omit closed in
theorem parameterTail_step : Passes fence (Expr.parameterTail next) := by
  intro lo cursor after parameters placed read
  rw [Expr.parameterTail] at read
  split at read
  · cases read
    exact placed
  · obtain ⟨⟨first, rest⟩, firstRead, read⟩ := Option.bind_eq_some_iff.mp read
    have placed := sound.parameter placed firstRead
    simp only at read
    split at read
    · obtain ⟨⟨others, rest⟩, othersRead, read⟩ := Option.bind_eq_some_iff.mp read
      cases read
      exact sound.parameterTail placed.advance othersRead
    split at read
    · cases read
      exact placed
    · cases read

theorem parameter_step : Passes fence (Expr.parameter next) := by
  intro lo cursor after parameter placed read
  rw [Expr.parameter] at read
  simp only at read
  obtain ⟨⟨_, rest⟩, decoratorsRead, read⟩ := Option.bind_eq_some_iff.mp read
  obtain ⟨⟨last, rest⟩, nameRead, read⟩ := Option.bind_eq_some_iff.mp read
  obtain ⟨⟨type, rest⟩, typeRead, read⟩ := Option.bind_eq_some_iff.mp read
  have placed := sound.decorators placed decoratorsRead
  have modified := placed.suffix (scan_dropModifiers.suffix () rfl)
  have placed := modified.skipPunct.parameterName closed nameRead
  have placed := placed.skipPunct.parameterType typeRead
  simp only at read
  split at read
  · obtain ⟨⟨value, rest⟩, valueRead, read⟩ := Option.bind_eq_some_iff.mp read
    cases read
    have value := sound.assignment placed.advance valueRead
    have := value.start
    have := value.nested.filled
    exact value.placed.weaken (by omega)
  · cases read
    exact placed

omit closed in
theorem decorators_step : Passes fence (Expr.decorators next) := by
  intro lo cursor after result placed read
  rw [Expr.decorators] at read
  split at read
  · obtain ⟨⟨decorator, rest⟩, decoratorRead, read⟩ := Option.bind_eq_some_iff.mp read
    have decorator := sound.callMember placed.advance decoratorRead
    have := decorator.start
    have := decorator.nested.filled
    exact sound.decorators (decorator.placed.weaken (by omega)) read
  · cases read
    exact placed

/-! ## All readers together -/

theorem step : Sound fence (Expr.step next) where
  assignment := assignment_step sound closed
  arrow := arrow_step sound closed
  conditional := conditional_step sound
  binary := binary_step sound
  binaryTail := binaryTail_step sound closed
  unary := unary_step sound closed
  callMember := callMember_step sound closed
  memberPath := memberPath_step sound closed
  memberTail := memberTail_step sound closed
  optionalTail := optionalTail_step sound closed
  arguments := arguments_step sound closed
  argumentTail := argumentTail_step sound
  element := element_step sound closed
  primary := primary_step sound closed
  functionExpression := functionExpression_step sound closed
  arrayTail := arrayTail_step sound
  objectTail := objectTail_step sound
  objectEntry := objectEntry_step sound
  parameterList := parameterList_step sound
  parameterTail := parameterTail_step sound
  parameter := parameter_step sound closed
  decorators := decorators_step sound

end Sound

theorem sound {fence : Token} (closed : fence.Closes) (depth : Nat) :
    Sound fence (readers depth) := by
  induction depth with
  | zero => exact .none
  | succ depth ih => exact ih.step closed

end Expr

namespace Cursor.Placed

variable {fence : Token} {lo : Nat} {cursor after : Cursor}

theorem expression {expr : Expr} (placed : Placed fence lo cursor) (closed : fence.Closes)
    (read : cursor.expression = some (expr, after)) : Expr.ReadFrom fence lo expr after :=
  (Expr.sound closed _).assignment placed read

theorem parameters {spans : List ParameterSpans} (placed : Placed fence lo cursor)
    (closed : fence.Closes) (read : cursor.parameters = some (spans, after)) :
    Placed fence lo after :=
  (Expr.sound closed _).parameterList placed read

end Cursor.Placed

end SourceCanvas
