import SourceCanvas.Outline.Parser
import SourceCanvas.Proofs.ExprLayout

/-!
# The layout of outlines

The constructs of a text lie one after the other, each with the constructs inside it nested in the
same way (`Construct.Nested`, `row_outline`). A statement reader gives constructs that lie between
the offset where its cursor is placed and the one where the cursor after it is placed; a statement
that is skipped gives none and only moves the cursor. The body of a function is a window of its own,
fenced by its closing brace, so a function nests what its body holds.
-/

namespace SourceCanvas

open Cursor (Placed)

/-! ## Nested constructs -/

/-- A construct that is not empty and whose children lie one after the other inside it, each of them
smaller than the whole. -/
inductive Construct.Nested : Construct → Prop where
  | mk {attributes : Attributes} {span : Span} {children : List Construct}
      (filled : span.start < span.stop)
      (row : InRow span.stop span.start (children.map Construct.span))
      (smaller : ∀ child ∈ children, child.span ≠ span)
      (nested : ∀ child ∈ children, Nested child) : Nested (.mk attributes span children)

namespace Construct

/-- Nested constructs that lie one after the other between two offsets. -/
abbrev Row (lo hi : Nat) (constructs : List Construct) : Prop :=
  RowOf Construct.span Nested lo hi constructs

variable {lo hi : Nat} {construct : Construct} {constructs children : List Construct}
  {attributes : Attributes} {span : Span}

theorem Nested.filled (nested : construct.Nested) :
    construct.span.start < construct.span.stop := by
  obtain ⟨filled, -, -, -⟩ := nested
  exact filled

/-- A construct is nested if its children lie behind its start. -/
theorem Nested.behind (start : span.start < lo) (row : Row lo span.stop children) :
    Nested (.mk attributes span children) := by
  have := row.1.le
  refine .mk (by omega) (row.1.weaken (by omega)) ?_ row.2
  intro child member same
  have := (row.bounds member).1
  rw [same] at this
  omega

theorem Row.single (nested : construct.Nested) :
    Row construct.span.start construct.span.stop [construct] :=
  .cons (Nat.le_refl _) nested.filled nested (.nil (Nat.le_refl _))

end Construct

/-! ## Constructs of expressions -/

namespace Expr

variable {source : List Char} {lo hi : Nat} {expr : Expr} {exprs : List Expr}

theorem mem_listConstructs {construct : Construct} :
    construct ∈ listConstructs source exprs ↔
      ∃ expr ∈ exprs, construct ∈ expr.constructs source := by
  induction exprs with
  | nil => simp [listConstructs]
  | cons expr exprs ih => simp [listConstructs, ih]

/-- What each expression of a row makes lies where the expression lies. -/
theorem listConstructs_row (row : InRow hi lo (exprs.map Expr.span))
    (each : ∀ expr ∈ exprs, Construct.Row expr.start expr.stop (expr.constructs source)) :
    Construct.Row lo hi (listConstructs source exprs) := by
  induction exprs generalizing lo with
  | nil => exact .nil row
  | cons expr exprs ih =>
    obtain ⟨start, filled, row⟩ := row
    have first := each expr (List.mem_cons_self ..)
    have others := ih row fun other member => each other (List.mem_cons_of_mem _ member)
    rw [listConstructs]
    exact (first.weaken start).append others

theorem constructs_row (nested : expr.Nested) :
    Construct.Row expr.start expr.stop (expr.constructs source) := by
  induction nested with
  | @mk form span parts filled row smaller nested ih =>
    have inside := listConstructs_row row ih
    rw [constructs]
    split
    · next attributes known =>
      refine Construct.Row.single (.mk filled inside.1 ?_ inside.2)
      intro child member same
      -- A child lies inside a part, which is smaller than the whole.
      obtain ⟨part, part_mem, member⟩ := mem_listConstructs.mp member
      obtain ⟨start, -, stop⟩ := (ih part part_mem).bounds member
      obtain ⟨start', -, stop'⟩ := row.bounds (List.mem_map_of_mem part_mem)
      rw [same] at start stop
      exact smaller part part_mem (Span.eq_of_within start stop start' stop')
    · exact inside

theorem parts_row (nested : expr.Nested) :
    Construct.Row expr.start expr.stop (listConstructs source expr.parts) := by
  obtain ⟨filled, row, smaller, nested⟩ := nested
  exact listConstructs_row row fun part member => constructs_row (nested part member)

/-- Without its parentheses an expression still lies inside. -/
theorem Nested.unwrap (nested : expr.Nested) :
    expr.unwrap.Nested ∧ expr.start ≤ expr.unwrap.start ∧ expr.unwrap.stop ≤ expr.stop := by
  induction nested with
  | @mk form span parts filled row smaller nested ih =>
    have here : (Expr.mk form span parts).Nested := .mk filled row smaller nested
    rw [Expr.unwrap.eq_def]
    split
    · next inner rest same =>
      cases same
      have member : inner ∈ inner :: rest := List.mem_cons_self ..
      obtain ⟨nested, start, stop⟩ := ih inner member
      obtain ⟨start', -, stop'⟩ := row.bounds (List.mem_map_of_mem member)
      exact ⟨nested, Nat.le_trans start' start, Nat.le_trans stop stop'⟩
    · exact ⟨here, Nat.le_refl _, Nat.le_refl _⟩

end Expr

/-! ## Statements -/

/-- What a statement gives: constructs in a row from an offset on, and a cursor placed behind them. -/
def Statement (fence : Token) (lo : Nat) (constructs : List Construct) (after : Cursor) : Prop :=
  ∃ mid, Construct.Row lo mid constructs ∧ Placed fence mid after

namespace Statement

variable {fence : Token} {lo start stop : Nat} {cursor after : Cursor} {constructs : List Construct}

theorem none (placed : Placed fence lo cursor) : Statement fence lo [] cursor :=
  ⟨lo, .nil (Nat.le_refl _), placed⟩

theorem single {attributes : Attributes} {children : List Construct}
    (nested : (Construct.mk attributes ⟨start, stop⟩ children).Nested)
    (placed : Placed fence stop cursor) :
    Statement fence start [.mk attributes ⟨start, stop⟩ children] cursor :=
  ⟨stop, .single nested, placed⟩

/-- A construct without children is nested if it is not empty. -/
theorem leaf {attributes : Attributes} (filled : start < stop) (placed : Placed fence stop cursor) :
    Statement fence start [.mk attributes ⟨start, stop⟩ []] cursor :=
  single (.behind filled (.nil (Nat.le_refl _))) placed

/-- The constructs of an expression that is a statement. -/
theorem expression {source : List Char} {expr : Expr} (found : Expr.ReadFrom fence lo expr after) :
    Statement fence lo (expr.constructs source) after :=
  ⟨expr.stop, (Expr.constructs_row found.nested).weaken found.start, found.placed⟩

theorem weaken {lo' : Nat} (statement : Statement fence lo constructs cursor) (le : lo' ≤ lo) :
    Statement fence lo' constructs cursor := by
  obtain ⟨mid, row, placed⟩ := statement
  exact ⟨mid, row.weaken le, placed⟩

theorem endStatement (statement : Statement fence lo constructs cursor)
    (read : cursor.endStatement = some after) : Statement fence lo constructs after := by
  obtain ⟨mid, row, placed⟩ := statement
  exact ⟨mid, row, placed.endStatement read⟩

theorem progress (statement : Statement fence lo constructs after) :
    Statement fence lo constructs (StatementReader.progress cursor after) := by
  obtain ⟨mid, row, placed⟩ := statement
  exact ⟨mid, row, placed.advance_if⟩

end Statement

namespace StatementReader

variable {fence : Token} {reader : StatementReader} {lo : Nat} {cursor : Cursor}

/-- A reader whose statements lie behind the offset where its cursor is placed. -/
def Sound (fence : Token) (reader : StatementReader) : Prop :=
  ∀ {lo : Nat} {cursor after : Cursor} {constructs : List Construct}, Placed fence lo cursor →
    reader cursor = some (constructs, after) → Statement fence lo constructs after

/-- A reader whose statements begin at an offset before its cursor. -/
def SoundFrom (fence : Token) (start : Nat) (reader : StatementReader) : Prop :=
  ∀ {lo : Nat} {cursor after : Cursor} {constructs : List Construct}, start ≤ lo →
    Placed fence lo cursor → reader cursor = some (constructs, after) →
    Statement fence start constructs after

/-- A statement that cannot be read leaves nothing behind: only the cursor moves. -/
theorem Sound.orSkip (sound : reader.Sound fence) (placed : Placed fence lo cursor) :
    Statement fence lo (reader.orSkip cursor).1 (reader.orSkip cursor).2 := by
  rw [StatementReader.orSkip]
  split
  · next constructs after read => exact (sound placed read).progress
  · exact (Statement.none (placed.suffix (scan_skipStatement.suffix (0, true) rfl))).progress

theorem Sound.all (sound : reader.Sound fence) (ordered : fence.start ≤ fence.stop) (fuel : Nat)
    (placed : Placed fence lo cursor) :
    Construct.Row lo fence.stop (StatementReader.all reader fuel cursor) := by
  induction fuel generalizing lo cursor with
  | zero => exact .nil (placed.le ordered)
  | succ fuel ih =>
    rw [StatementReader.all]
    split
    · exact .nil (placed.le ordered)
    · obtain ⟨mid, row, placed⟩ := sound.orSkip placed
      exact row.append (ih placed)

end StatementReader

namespace Reading

variable {fence : Token} {lo start : Nat} {cursor after : Cursor} {reading : Reading}

/-! ## Imports and exports -/

theorem specifiers_reads {fence : Span} {words names : List String} {tokens rest : List Token}
    {closer : Token} (laid : Laid fence lo tokens)
    (read : specifiers words tokens = some (names, closer, rest)) :
    lo < closer.stop ∧ Laid fence closer.stop rest := by
  induction tokens generalizing words names lo with
  | nil => cases read
  | cons token others ih =>
    obtain ⟨start, filled, -, laid⟩ := laid
    rw [specifiers] at read
    split at read
    · cases read
      exact ⟨by omega, laid⟩
    split at read
    · obtain ⟨⟨names', closer', rest'⟩, read, same⟩ := Option.map_eq_some_iff.mp read
      cases same
      obtain ⟨behind, laid⟩ := ih laid read
      exact ⟨by omega, laid⟩
    · obtain ⟨behind, laid⟩ := ih laid read
      exact ⟨by omega, laid⟩

theorem specifierList_reads {names : List String} {closer : Token}
    (placed : Placed fence lo cursor)
    (read : specifierList cursor = some (names, closer, after)) :
    lo < closer.stop ∧ Placed fence closer.stop after := by
  obtain ⟨⟨opener, inner⟩, openerRead, read⟩ := Option.bind_eq_some_iff.mp read
  obtain ⟨⟨names', closer', rest⟩, namesRead, read⟩ := Option.bind_eq_some_iff.mp read
  cases read
  obtain ⟨behind, placed⟩ := placed.expectPunct openerRead
  obtain ⟨behind', laid⟩ := specifiers_reads placed.2 namesRead
  exact ⟨by omega, placed.move laid⟩

theorem importClause_reads {attributes attributes' : ImportAttributes} (closed : fence.Closes)
    (placed : Placed fence lo cursor)
    (read : importClause attributes cursor = some (attributes', after)) :
    Placed fence lo after := by
  rw [importClause] at read
  have opens : Placed fence lo (if cursor.peek.kind = .identifier then
      ({ attributes with defaultName := some cursor.peek.value }, cursor.advance.skipPunct ",")
      else (attributes, cursor)).2 := by
    split
    · exact placed.advance.skipPunct
    · exact placed
  generalize (if cursor.peek.kind = .identifier then
    ({ attributes with defaultName := some cursor.peek.value }, cursor.advance.skipPunct ",")
    else (attributes, cursor)) = taken at read opens
  obtain ⟨attributes, cursor⟩ := taken
  simp only at read opens
  split at read
  · obtain ⟨⟨word, inner⟩, wordRead, read⟩ := Option.bind_eq_some_iff.mp read
    obtain ⟨⟨name, inner'⟩, nameRead, read⟩ := Option.bind_eq_some_iff.mp read
    cases read
    obtain ⟨start, filled, placed⟩ := opens.advance.expectWord closed wordRead
    obtain ⟨start', filled', placed⟩ := placed.expectIdentifier closed nameRead
    exact placed.weaken (by omega)
  split at read
  · obtain ⟨⟨names, closer, inner⟩, namesRead, read⟩ := Option.bind_eq_some_iff.mp read
    cases read
    obtain ⟨behind, placed⟩ := specifierList_reads opens namesRead
    exact placed.weaken (by omega)
  · cases read
    exact opens

theorem fromSource_reads {source : Token} (closed : fence.Closes) (placed : Placed fence lo cursor)
    (read : fromSource cursor = some (source, after)) :
    lo < source.stop ∧ Placed fence source.stop after := by
  obtain ⟨⟨word, inner⟩, wordRead, read⟩ := Option.bind_eq_some_iff.mp read
  obtain ⟨start, filled, placed⟩ := placed.expectWord closed wordRead
  obtain ⟨start', filled', placed⟩ := placed.expectString closed read
  exact ⟨by omega, placed⟩

theorem importFrom_reads {typeOnly : Bool} {attributes : ImportAttributes} {source : Token}
    (closed : fence.Closes) (placed : Placed fence lo cursor)
    (read : importFrom typeOnly cursor = some (attributes, source, after)) :
    lo < source.stop ∧ Placed fence source.stop after := by
  rw [importFrom] at read
  split at read
  · next string =>
    cases read
    obtain ⟨start, filled, placed⟩ := placed.step closed
      (Token.not_closes_of_kind string (by decide))
    exact ⟨by omega, placed⟩
  · obtain ⟨⟨attributes', inner⟩, clauseRead, read⟩ := Option.bind_eq_some_iff.mp read
    obtain ⟨⟨source', inner'⟩, sourceRead, read⟩ := Option.bind_eq_some_iff.mp read
    cases read
    exact fromSource_reads closed (importClause_reads closed placed clauseRead) sourceRead

theorem importStatement_sound (closed : fence.Closes) (inside : ¬cursor.peek.Closes)
    {constructs : List Construct} (placed : Placed fence lo cursor)
    (read : importStatement cursor = some (constructs, after)) :
    Statement fence lo constructs after := by
  rw [importStatement] at read
  simp only at read
  obtain ⟨⟨attributes, source, inner⟩, sourceRead, read⟩ := Option.bind_eq_some_iff.mp read
  obtain ⟨inner', endRead, read⟩ := Option.bind_eq_some_iff.mp read
  cases read
  obtain ⟨start, placed⟩ := placed.here closed inside
  obtain ⟨behind, placed⟩ := importFrom_reads closed placed.advance.advance_if sourceRead
  exact ((Statement.leaf behind placed).endStatement endRead).weaken start

theorem wholeName_reads {name : Option String} (closed : fence.Closes)
    (placed : Placed fence lo cursor) (read : wholeName cursor = some (name, after)) :
    Placed fence lo after := by
  rw [wholeName] at read
  split at read
  · obtain ⟨⟨word, inner⟩, nameRead, same⟩ := Option.map_eq_some_iff.mp read
    cases same
    obtain ⟨start, filled, placed⟩ := placed.advance.expectIdentifier closed nameRead
    exact placed.weaken (by omega)
  · cases read
    exact placed

theorem exportStar_sound (closed : fence.Closes) :
    StatementReader.SoundFrom fence start (exportStar start) := by
  intro lo cursor after constructs le placed read
  obtain ⟨⟨name, inner⟩, nameRead, read⟩ := Option.bind_eq_some_iff.mp read
  obtain ⟨⟨source, inner⟩, sourceRead, read⟩ := Option.bind_eq_some_iff.mp read
  obtain ⟨inner, endRead, read⟩ := Option.bind_eq_some_iff.mp read
  cases read
  obtain ⟨behind, placed⟩ :=
    fromSource_reads closed (wholeName_reads closed placed nameRead) sourceRead
  exact (Statement.leaf (by omega) placed).endStatement endRead

theorem exportSource_reads {closer : Token} {name : Option String} {stop : Nat}
    (closed : fence.Closes) (placed : Placed fence closer.stop cursor)
    (read : exportSource closer cursor = some (name, stop, after)) :
    closer.stop ≤ stop ∧ Placed fence stop after := by
  rw [exportSource] at read
  split at read
  · obtain ⟨⟨source, inner⟩, sourceRead, same⟩ := Option.map_eq_some_iff.mp read
    cases same
    obtain ⟨behind, placed⟩ := fromSource_reads closed placed sourceRead
    exact ⟨by omega, placed⟩
  · cases read
    exact ⟨Nat.le_refl _, placed⟩

theorem exportNamed_sound (closed : fence.Closes) :
    StatementReader.SoundFrom fence start (exportNamed start) := by
  intro lo cursor after constructs le placed read
  obtain ⟨⟨names, closer, inner⟩, namesRead, read⟩ := Option.bind_eq_some_iff.mp read
  obtain ⟨⟨source, stop, inner⟩, sourceRead, read⟩ := Option.bind_eq_some_iff.mp read
  obtain ⟨inner, endRead, read⟩ := Option.bind_eq_some_iff.mp read
  cases read
  obtain ⟨behind, placed⟩ := specifierList_reads placed namesRead
  obtain ⟨behind', placed⟩ := exportSource_reads closed placed sourceRead
  exact (Statement.leaf (by omega) placed).endStatement endRead

theorem exportDefault_sound (closed : fence.Closes) :
    StatementReader.SoundFrom fence start (reading.exportDefault start) := by
  intro lo cursor after constructs le placed read
  obtain ⟨⟨expr, inner⟩, exprRead, read⟩ := Option.bind_eq_some_iff.mp read
  obtain ⟨inner, endRead, read⟩ := Option.bind_eq_some_iff.mp read
  cases read
  have expr := placed.expression closed exprRead
  have := expr.start
  have := expr.nested.filled
  exact (Statement.leaf (by omega) expr.placed).endStatement endRead

/-! ## Interfaces -/

theorem baseTypes_reads {depth : Nat} {names : List String} (placed : Placed fence lo cursor)
    (read : baseTypes reading depth cursor = some (names, after)) : Placed fence lo after := by
  induction depth generalizing lo cursor names with
  | zero => cases read
  | succ depth ih =>
    obtain ⟨⟨span, inner⟩, typeRead, read⟩ := Option.bind_eq_some_iff.mp read
    obtain ⟨behind, placed⟩ := placed.type? typeRead
    simp only at read
    split at read
    · obtain ⟨⟨others, inner⟩, othersRead, read⟩ := Option.bind_eq_some_iff.mp read
      cases read
      exact (ih placed.advance othersRead).weaken (by omega)
    · cases read
      exact placed.weaken (by omega)

theorem extended_reads {names : List String} (placed : Placed fence lo cursor)
    (read : reading.extended cursor = some (names, after)) : Placed fence lo after := by
  rw [extended] at read
  split at read
  · exact baseTypes_reads placed.advance read
  · cases read
    exact placed

theorem interfaceStatement_sound (closed : fence.Closes) :
    StatementReader.SoundFrom fence start (reading.interfaceStatement start) := by
  intro lo cursor after constructs le placed read
  obtain ⟨⟨name, inner⟩, nameRead, read⟩ := Option.bind_eq_some_iff.mp read
  obtain ⟨inner, typesRead, read⟩ := Option.bind_eq_some_iff.mp read
  obtain ⟨⟨bases, inner⟩, basesRead, read⟩ := Option.bind_eq_some_iff.mp read
  obtain ⟨⟨opener, inside⟩, openerRead, read⟩ := Option.bind_eq_some_iff.mp read
  obtain ⟨⟨tokens, closer, rest⟩, bodyRead, read⟩ := Option.bind_eq_some_iff.mp read
  cases read
  obtain ⟨start', filled, placed⟩ := placed.advance.expectIdentifier closed nameRead
  have placed := extended_reads (placed.typeParameters typesRead) basesRead
  obtain ⟨behind, inside⟩ := placed.expectPunct openerRead
  obtain ⟨parts, -⟩ := Extent.eq_of_enclosed? bodyRead
  obtain ⟨start'', filled', -, laid⟩ := (parts ▸ inside.2).split
  exact Statement.leaf (by omega) (placed.move laid)

/-! ## Variables -/

/-- An expression taken apart in the place of the declaration that it initializes. -/
theorem reclassified?_nested {name : String} {expr : Expr} {span : Span} {construct : Construct}
    (nested : expr.Nested) (start : span.start < expr.start) (stop : expr.stop ≤ span.stop)
    (made : reclassified? reading name expr span = some construct) :
    construct.Nested ∧ construct.span = span := by
  have filled := nested.filled
  rw [reclassified?] at made
  split at made
  · cases made
  obtain ⟨kind, -, made⟩ := Option.bind_eq_some_iff.mp made
  split at made
  · obtain ⟨⟨label, value⟩, -, made⟩ := Option.bind_eq_some_iff.mp made
    cases made
    exact ⟨.behind start (.nil (by omega)), rfl⟩
  · obtain ⟨attributes, -, made⟩ := Option.bind_eq_some_iff.mp made
    split at made
    · cases made
      obtain ⟨nested, start', stop'⟩ := nested.unwrap
      exact ⟨.behind (Nat.lt_of_lt_of_le start start')
        ((Expr.parts_row nested).extend (Nat.le_trans stop' stop)), rfl⟩
    · cases made

theorem declaration_nested (reading : Reading) (keyword name : String) (type : Option Span)
    (initializer : Option Expr) (span : Span) (filled : span.start < span.stop)
    (inside : ∀ expr ∈ initializer,
      expr.Nested ∧ span.start < expr.start ∧ expr.stop ≤ span.stop) :
    (declaration reading keyword name type initializer span).Nested ∧
      (declaration reading keyword name type initializer span).span = span := by
  rw [declaration]
  split
  · next construct made =>
    obtain ⟨expr, given, made⟩ := Option.bind_eq_some_iff.mp made
    obtain ⟨nested, start, stop⟩ := inside expr given
    exact reclassified?_nested nested start stop made
  · refine ⟨?_, rfl⟩
    cases initializer with
    | none => exact .behind filled (.nil (Nat.le_refl _))
    | some expr =>
      obtain ⟨nested, start, stop⟩ := inside expr rfl
      exact .behind start ((Expr.constructs_row nested).extend stop)

theorem declaredType_reads {name : Token} {type : Option Span} {stop : Nat}
    (placed : Placed fence name.stop cursor)
    (read : declaredType name cursor = some (type, stop, after)) :
    name.stop ≤ stop ∧ Placed fence stop after := by
  have marked : name.stop ≤ (if cursor.peek.isPunct "!" then cursor.peek.stop else name.stop) ∧
      Placed fence (if cursor.peek.isPunct "!" then cursor.peek.stop else name.stop)
        (cursor.skipPunct "!") := by
    rw [Cursor.skipPunct]
    split
    · exact placed.pass
    · exact ⟨Nat.le_refl _, placed⟩
  rw [declaredType] at read
  simp only at read
  generalize (if cursor.peek.isPunct "!" then cursor.peek.stop else name.stop) = named
    at read marked
  obtain ⟨behind, placed⟩ := marked
  split at read
  · obtain ⟨⟨span, inner⟩, typeRead, same⟩ := Option.map_eq_some_iff.mp read
    cases same
    obtain ⟨behind', placed⟩ := placed.advance.type? typeRead
    exact ⟨by show name.stop ≤ span.stop; omega, placed⟩
  · cases read
    exact ⟨behind, placed⟩

theorem initializer_reads {initializer : Option Expr} (closed : fence.Closes)
    (placed : Placed fence lo cursor)
    (read : Reading.initializer cursor = some (initializer, after)) :
    (∀ expr ∈ initializer, expr.Nested ∧ lo ≤ expr.start) ∧
      Placed fence ((initializer.map Expr.stop).getD lo) after := by
  rw [Reading.initializer] at read
  split at read
  · obtain ⟨⟨expr, inner⟩, exprRead, same⟩ := Option.map_eq_some_iff.mp read
    cases same
    have found := placed.advance.expression closed exprRead
    refine ⟨?_, found.placed⟩
    rintro _ ⟨⟩
    exact ⟨found.nested, found.start⟩
  · cases read
    exact ⟨by simp, placed⟩

/-- The construct of a declaration, from its name on or from before it. -/
theorem declaration_reads (reading : Reading) (keyword : String) {name : Token}
    {type : Option Span} {stop : Nat} {initializer : Option Expr} {middle : Cursor}
    (closed : fence.Closes) (before : start < name.stop)
    (placed : Placed fence name.stop cursor)
    (typeRead : declaredType name cursor = some (type, stop, middle))
    (initializerRead : Reading.initializer middle = some (initializer, after)) :
    Statement fence start [declaration reading keyword name.value type initializer
      ⟨start, (initializer.map Expr.stop).getD stop⟩] after := by
  obtain ⟨behind, placed⟩ := declaredType_reads placed typeRead
  obtain ⟨inside, placed⟩ := initializer_reads closed placed initializerRead
  have ends : stop ≤ (initializer.map Expr.stop).getD stop := by
    cases initializer with
    | none => exact Nat.le_refl _
    | some expr =>
      obtain ⟨nested, start⟩ := inside expr rfl
      exact Nat.le_trans start (Nat.le_of_lt nested.filled)
  have filled : start < (initializer.map Expr.stop).getD stop := by omega
  obtain ⟨nested, same⟩ := declaration_nested reading keyword name.value type initializer
    ⟨start, (initializer.map Expr.stop).getD stop⟩ filled (by
      rintro expr ⟨⟩
      obtain ⟨nested, behind'⟩ := inside expr rfl
      exact ⟨nested, by show start < expr.start; omega, Nat.le_refl _⟩)
  have row := Construct.Row.single nested
  rw [same] at row
  exact ⟨_, row, placed⟩

/-- Declarations lie one after the other. The first one begins before its name if it has the start
of the statement. -/
theorem declarations_reads {keyword : String} {depth : Nat} {first : Option Nat}
    {constructs : List Construct} (closed : fence.Closes) (before : ∀ start ∈ first, start < lo)
    (placed : Placed fence lo cursor)
    (read : declarations reading keyword depth first cursor = some (constructs, after)) :
    Statement fence (first.getD lo) constructs after := by
  induction depth generalizing lo cursor first constructs with
  | zero => cases read
  | succ depth ih =>
    obtain ⟨⟨name, inner⟩, nameRead, read⟩ := Option.bind_eq_some_iff.mp read
    obtain ⟨⟨type, stop, inner⟩, typeRead, read⟩ := Option.bind_eq_some_iff.mp read
    obtain ⟨⟨initializer, inner⟩, initializerRead, read⟩ := Option.bind_eq_some_iff.mp read
    obtain ⟨start, filled, placed⟩ := placed.expectIdentifier closed nameRead
    have opens : first.getD lo ≤ first.getD name.start ∧ first.getD name.start < name.stop := by
      cases first with
      | none => exact ⟨start, filled⟩
      | some start' =>
        have : start' < lo := before start' rfl
        exact ⟨Nat.le_refl _, by show start' < name.stop; omega⟩
    have head := (declaration_reads reading keyword closed opens.2 placed typeRead
      initializerRead).weaken opens.1
    simp only at read
    split at read
    · obtain ⟨⟨others, rest⟩, othersRead, read⟩ := Option.bind_eq_some_iff.mp read
      cases read
      obtain ⟨mid, row, placed⟩ := head
      have free : ∀ start ∈ (none : Option Nat), start < mid := by simp
      obtain ⟨last, row', placed⟩ := ih free placed.advance othersRead
      exact ⟨last, row.append row', placed⟩
    · cases read
      exact head

theorem variableStatement_sound (closed : fence.Closes) (inside : ¬cursor.peek.Closes)
    {constructs : List Construct} (le : start ≤ lo) (placed : Placed fence lo cursor)
    (read : reading.variableStatement start cursor = some (constructs, after)) :
    Statement fence start constructs after := by
  rw [variableStatement] at read
  simp only at read
  obtain ⟨⟨found, inner⟩, declarationsRead, read⟩ := Option.bind_eq_some_iff.mp read
  obtain ⟨inner', endRead, read⟩ := Option.bind_eq_some_iff.mp read
  cases read
  obtain ⟨start', filled, placed⟩ := placed.step closed inside
  have behind : ∀ first ∈ some start, first < cursor.peek.stop := by
    rintro _ ⟨⟩
    omega
  exact (declarations_reads closed behind placed declarationsRead).endStatement endRead

/-! ## Functions -/

theorem returnStatement_sound (closed : fence.Closes) :
    reading.returnStatement.Sound fence := by
  intro lo cursor after constructs placed read
  rw [returnStatement] at read
  simp only at read
  split at read
  · obtain ⟨inner, endRead, read⟩ := Option.bind_eq_some_iff.mp read
    cases read
    exact (Statement.none placed).endStatement endRead
  · obtain ⟨⟨expr, inner⟩, exprRead, read⟩ := Option.bind_eq_some_iff.mp read
    obtain ⟨inner', endRead, read⟩ := Option.bind_eq_some_iff.mp read
    cases read
    exact (Statement.expression (placed.expression closed exprRead)).endStatement endRead

theorem bodyStatement_sound (closed : fence.Closes) : reading.bodyStatement.Sound fence := by
  intro lo cursor after constructs placed read
  rw [bodyStatement] at read
  simp only at read
  split at read
  · cases read
    exact .none placed.advance
  split at read
  · exact returnStatement_sound closed placed.advance read
  split at read
  · next marked =>
    rw [Bool.and_eq_true, Token.isWordIn_iff] at marked
    have inside := Token.not_closes_of_identifier marked.1.1
    obtain ⟨start, placed⟩ := placed.here closed inside
    exact (variableStatement_sound closed inside (Nat.le_refl _) placed read).weaken start
  split at read
  · cases read
  · obtain ⟨⟨expr, inner⟩, exprRead, read⟩ := Option.bind_eq_some_iff.mp read
    obtain ⟨inner', endRead, read⟩ := Option.bind_eq_some_iff.mp read
    cases read
    exact (Statement.expression (placed.expression closed exprRead)).endStatement endRead

/-- The body of a function is read in the window before its closing brace. -/
theorem functionStatement_sound (closed : fence.Closes) :
    StatementReader.SoundFrom fence start (reading.functionStatement start) := by
  intro lo cursor after constructs le placed read
  rw [functionStatement] at read
  simp only at read
  obtain ⟨⟨name, inner⟩, nameRead, read⟩ := Option.bind_eq_some_iff.mp read
  obtain ⟨inner, typesRead, read⟩ := Option.bind_eq_some_iff.mp read
  obtain ⟨⟨parameters, inner⟩, parametersRead, read⟩ := Option.bind_eq_some_iff.mp read
  obtain ⟨⟨type, inner⟩, typeRead, read⟩ := Option.bind_eq_some_iff.mp read
  obtain ⟨⟨opener, inside⟩, openerRead, read⟩ := Option.bind_eq_some_iff.mp read
  obtain ⟨⟨tokens, closer, rest⟩, bodyRead, read⟩ := Option.bind_eq_some_iff.mp read
  cases read
  obtain ⟨start', filled, placed⟩ :=
    placed.advance_if.advance.expectIdentifier closed nameRead
  have placed := ((placed.typeParameters typesRead).parameters closed parametersRead).resultType
    typeRead
  obtain ⟨behind, opened⟩ := placed.expectPunct openerRead
  obtain ⟨parts, closes⟩ := Extent.eq_of_enclosed? bodyRead
  have laid := parts ▸ opened.2
  obtain ⟨start'', filled', -, laid'⟩ := laid.split
  have body : Placed closer opener.stop ⟨tokens, closer⟩ := ⟨rfl, laid.window⟩
  have sound : reading.bodyStatement.Sound closer := bodyStatement_sound (Or.inl closes)
  have children := sound.all (Nat.le_of_lt filled') tokens.length body
  split
  · exact Statement.leaf (by show start < closer.stop; omega) (placed.move laid')
  · exact Statement.single (.behind (by show start < opener.stop; omega) children)
      (placed.move laid')

/-! ## Texts -/

theorem exportStatement_sound (closed : fence.Closes) (inside : ¬cursor.peek.Closes)
    {constructs : List Construct} (placed : Placed fence lo cursor)
    (read : reading.exportStatement cursor = some (constructs, after)) :
    Statement fence lo constructs after := by
  obtain ⟨start, filled, placed⟩ := placed.step closed inside
  have le : cursor.peek.start ≤ cursor.peek.stop := by omega
  rw [exportStatement] at read
  simp only at read
  refine Statement.weaken ?_ start
  split at read
  · split at read
    · exact functionStatement_sound closed le placed.advance read
    split at read
    · cases read
    · exact exportDefault_sound closed le placed.advance read
  split at read
  · exact exportStar_sound closed le placed.advance read
  split at read
  · exact exportNamed_sound closed le placed read
  split at read
  · exact functionStatement_sound closed le placed read
  split at read
  · exact interfaceStatement_sound closed le placed read
  split at read
  · next marked =>
    rw [Bool.and_eq_true, Token.isWordIn_iff] at marked
    exact variableStatement_sound closed (Token.not_closes_of_identifier marked.1.1) le placed read
  · cases read

theorem not_closes_of_atFunction (marked : atFunction cursor = true) : ¬cursor.peek.Closes := by
  rw [atFunction, Bool.or_eq_true, Bool.and_eq_true, Bool.and_eq_true] at marked
  rcases marked with word | ⟨⟨word, -⟩, -⟩
  · exact Token.not_closes_of_identifier (Token.kind_of_isWord word)
  · exact Token.not_closes_of_identifier (Token.kind_of_isWord word)

theorem topStatement_sound (closed : fence.Closes) : reading.topStatement.Sound fence := by
  intro lo cursor after constructs placed read
  rw [topStatement] at read
  split at read
  · cases read
    exact .none placed.advance
  split at read
  · next marked =>
    rw [Bool.and_eq_true] at marked
    have inside := Token.not_closes_of_identifier (Token.kind_of_isWord marked.1)
    exact importStatement_sound closed inside placed read
  split at read
  · next word =>
    have inside := Token.not_closes_of_identifier (Token.kind_of_isWord word)
    exact exportStatement_sound closed inside placed read
  split at read
  · next marked =>
    obtain ⟨start, placed⟩ := placed.here closed (not_closes_of_atFunction marked)
    exact (functionStatement_sound closed (Nat.le_refl _) placed read).weaken start
  split at read
  · next marked =>
    rw [Bool.and_eq_true] at marked
    have inside := Token.not_closes_of_identifier (Token.kind_of_isWord marked.1)
    obtain ⟨start, placed⟩ := placed.here closed inside
    exact (interfaceStatement_sound closed (Nat.le_refl _) placed read).weaken start
  split at read
  · next marked =>
    rw [Bool.and_eq_true, Token.isWordIn_iff] at marked
    have inside := Token.not_closes_of_identifier marked.1.1
    obtain ⟨start, placed⟩ := placed.here closed inside
    exact (variableStatement_sound closed inside (Nat.le_refl _) placed read).weaken start
  · cases read

end Reading

/-- **The constructs of a text** are nested and lie one after the other inside the text. -/
theorem row_of_outline {reclassify : Bool} {text : String} {constructs : List Construct}
    (read : outline reclassify text = .ok constructs) : Construct.Row 0 text.length constructs := by
  rw [outline] at read
  cases tokenized : tokenize text with
  | error error =>
    rw [tokenized] at read
    cases read
  | ok tokens =>
    rw [tokenized] at read
    cases read
    obtain ⟨before, newline, rfl, laid, -⟩ := laid_of_tokenize tokenized
    rw [Reading.outline, List.dropLast_concat, List.getLastD_concat]
    have placed : Placed (.atEnd text.length newline) 0 ⟨before, .atEnd text.length newline⟩ :=
      ⟨rfl, laid⟩
    exact StatementReader.Sound.all (Reading.topStatement_sound (Or.inr rfl)) (Nat.le_refl _) _
      placed

end SourceCanvas
