import SourceCanvas.Proofs.WrittenTypes
import SourceCanvas.Proofs.Precedence

/-!
# Written values

What a reader of expressions does at one token is said first, for all tokens. An atom is a name, a
number or a call without arguments (`Atom`). It is read as an operand before everything that does
not go on with it (`Expr.Detached`, `Atom.read_binary`), and as a whole expression before the marks
that end one (`Atom.read_assignment`). Arguments are read atom by atom (`Atom.read_arguments`), and
so are the entries of objects.
-/

namespace SourceCanvas

open Stroke (Legible Phrase Paired listed word sign space)

/-! ## Operands and what comes behind them -/

namespace Expr

variable {token : Token} {rest : List Token} {fence : Token} {cursor after : Cursor} {expr : Expr}
  {least : Nat}

/-- A token with those behind it that does not go on with an operand before it. -/
structure Detached (token : Token) (rest : List Token) : Prop where
  marks : token.isPunctIn [".", "?.", "(", "[", "!", "++", "--"] = false
  plain : token.kind ≠ .template
  angle : token.isPunct "<" = true → Extent.typeArguments? 0 (token :: rest) = none

/-- Marks that end what is written before them. -/
def closers : List String := [";", ",", ")", "\x7d", ":"]

namespace Detached

theorem isPunct (detached : Detached token rest) (mark : String)
    (member : mark ∈ [".", "?.", "(", "[", "!", "++", "--"]) : token.isPunct mark = false := by
  refine Bool.eq_false_iff.mpr fun same => Bool.eq_false_iff.mp detached.marks ?_
  obtain ⟨kind, rfl⟩ := Token.isPunct_iff.mp same
  exact Token.isPunctIn_iff.mpr ⟨kind, member⟩

/-- No access or call comes next. -/
theorem memberTail (detached : Detached token rest) (closed : fence.Closes) :
    read (.memberTail expr) ⟨token :: rest, fence⟩ = some (expr, ⟨token :: rest, fence⟩) := by
  rw [read_eq closed, step, Expr.memberTail]
  have none : (if token.isPunct "<" = true then Extent.typeArguments? 0 (token :: rest)
      else none) = none := by
    split
    · next angle => exact detached.angle angle
    · rfl
  simp [Cursor.peek, detached.isPunct, detached.plain, none]

end Detached

/-- What ends the text before it is no other mark. -/
theorem isPunct_of_closer (closes : token.isPunctIn closers = true) {mark : String}
    (apart : mark ∉ closers) : token.isPunct mark = false := by
  refine Bool.eq_false_iff.mpr fun same => apart ?_
  rw [← (Token.isPunct_iff.mp same).2]
  exact (Token.isPunctIn_iff.mp closes).2

/-- What ends the text before it is detached from that. -/
theorem detached_of_closer (closes : token.isPunctIn closers = true) : Detached token rest := by
  obtain ⟨kind, member⟩ := Token.isPunctIn_iff.mp closes
  refine ⟨Bool.eq_false_iff.mpr fun mark => ?_, by simp [kind], fun angle => ?_⟩
  · have absent : ∀ value ∈ closers, value ∉ [".", "?.", "(", "[", "!", "++", "--"] := by decide
    exact absent token.value member (Token.isPunctIn_iff.mp mark).2
  · have absent : "<" ∉ closers := by decide
    rw [(Token.isPunct_iff.mp angle).2] at member
    exact absurd member absent

/-- No operator comes next. -/
theorem binaryTail_closer (closes : token.isPunctIn closers = true) (closed : fence.Closes) :
    read (.binaryTail least expr) ⟨token :: rest, fence⟩ = some (expr, ⟨token :: rest, fence⟩) := by
  obtain ⟨kind, member⟩ := Token.isPunctIn_iff.mp closes
  have none : ∀ value ∈ closers, binaryPrecedence.lookup value = none := by decide
  have unknown : token.precedence? = Option.none := by
    rw [Token.precedence?, if_pos (by simp [kind]), none token.value member]
  rw [read_eq closed, step, Expr.binaryTail]
  simp [Cursor.peek, unknown, Token.isWordIn, kind]

/-- What is read with its accesses and calls is an operand before what is detached from it. -/
theorem read_operand (starts : Starts cursor.peek) (detached : Detached token rest)
    (closed : cursor.fence.Closes) (closed' : fence.Closes)
    (found : read .callMember cursor = read (.memberTail expr) ⟨token :: rest, fence⟩) :
    read (.binary least) cursor = read (.binaryTail least expr) ⟨token :: rest, fence⟩ := by
  rw [detached.memberTail closed'] at found
  have next : token.isPunctIn ["++", "--"] = false := by
    refine Bool.eq_false_iff.mpr fun found => Bool.eq_false_iff.mp detached.marks ?_
    obtain ⟨kind, member⟩ := Token.isPunctIn_iff.mp found
    have members : ["++", "--"] ⊆ [".", "?.", "(", "[", "!", "++", "--"] := by decide
    exact Token.isPunctIn_iff.mpr ⟨kind, members member⟩
  have operand : read .unary cursor = some (expr, ⟨token :: rest, fence⟩) := by
    have peek : (⟨token :: rest, fence⟩ : Cursor).peek = token := rfl
    rw [read_eq closed, step, unary]
    simp [starts.marks, starts.words, starts.angle, found, peek, next]
  rw [read_eq closed, step, binary]
  simp [operand]

/-- An operation is a whole expression before what ends it. -/
theorem read_closed (closed : cursor.fence.Closes) (closed' : fence.Closes)
    (arrow : cursor.atArrow = false) (closes : token.isPunctIn closers = true)
    (found : read (.binary 1) cursor = read (.binaryTail 1 expr) ⟨token :: rest, fence⟩) :
    read .assignment cursor = some (expr, ⟨token :: rest, fence⟩) := by
  rw [binaryTail_closer closes closed'] at found
  obtain ⟨kind, member⟩ := Token.isPunctIn_iff.mp closes
  have other : ∀ value ∈ closers, value ≠ "?" ∧ value ∉ assignmentOperators := by decide
  have choice : read .conditional cursor = some (expr, ⟨token :: rest, fence⟩) := by
    rw [read_eq closed, step, conditional, found]
    simp [Cursor.peek, Token.isPunct, other token.value member]
  rw [read_eq closed, step, assignment, arrow]
  simp [choice, Cursor.peek, Token.isPunctIn, other token.value member]

/-- A word is no parameter where no arrow comes behind it. -/
theorem atArrow_name {name : Token} {others : List Token} (kind : name.kind = .identifier)
    (async : name.isWord "async" = false) (arrow : token.isPunct "=>" = false) :
    (⟨name :: token :: others, fence⟩ : Cursor).atArrow = false := by
  simp [Cursor.atArrow, Cursor.peek, Cursor.peekAt, kind, async, arrow]

/-- What is read with its accesses and calls is a whole expression before what ends it. -/
theorem read_simple (starts : Starts cursor.peek) (closed : cursor.fence.Closes)
    (closed' : fence.Closes) (arrow : cursor.atArrow = false)
    (closes : token.isPunctIn closers = true)
    (found : read .callMember cursor = read (.memberTail expr) ⟨token :: rest, fence⟩) :
    read .assignment cursor = some (expr, ⟨token :: rest, fence⟩) :=
  read_closed closed closed' arrow closes
    (read_operand starts (detached_of_closer closes) closed closed' found)

/-- Accesses and calls are read behind a simple expression. -/
theorem callMember_primary (closed : cursor.fence.Closes) (other : cursor.peek.isWord "new" = false)
    (found : read .primary cursor = some (expr, after)) :
    read .callMember cursor = read (.memberTail expr) after := by
  rw [read_eq closed, step, callMember]
  simp [other, found]

/-- An access is read with the name behind its point. -/
theorem read_access {point name : Token} (closed : fence.Closes) (marks : point.isPunct "." = true)
    (kind : name.kind = .identifier) :
    read (.memberTail expr) ⟨point :: name :: rest, fence⟩ =
      read (.memberTail (.mk (.member name.value) ⟨expr.start, name.stop⟩ [expr]))
        ⟨rest, fence⟩ := by
  have private' : name.isPunct "#" = false := by simp [Token.isPunct, kind]
  rw [read_eq closed, step, Expr.memberTail]
  simp [Cursor.peek, Cursor.advance, marks, Cursor.memberName, Cursor.skipPunct, private',
    Cursor.expectIdentifier, kind]

/-- A choice is read with its three parts. -/
theorem read_choice {question colon : Token} {test whenTrue whenFalse : Expr}
    {first second : List Token} (closed : cursor.fence.Closes) (closed' : fence.Closes)
    (arrow : cursor.atArrow = false) (asks : question.isPunct "?" = true)
    (parts : colon.isPunct ":" = true) (closes : token.isPunctIn closers = true)
    (found : read (.binary 1) cursor =
      read (.binaryTail 1 test) ⟨question :: first, fence⟩)
    (foundTrue : read .assignment ⟨first, fence⟩ = some (whenTrue, ⟨colon :: second, fence⟩))
    (foundFalse : read .assignment ⟨second, fence⟩ = some (whenFalse, ⟨token :: rest, fence⟩)) :
    read .assignment cursor =
      some (.mk .conditional ⟨test.start, whenFalse.stop⟩ [test, whenTrue, whenFalse],
        ⟨token :: rest, fence⟩) := by
  obtain ⟨kind, member⟩ := Token.isPunctIn_iff.mp closes
  obtain ⟨kind', value⟩ := Token.isPunct_iff.mp asks
  have other : ∀ value ∈ closers, value ∉ assignmentOperators := by decide
  have unknown : question.precedence? = none := by
    rw [Token.precedence?, if_pos (by simp [kind']), value]
    rfl
  have stop : read (.binaryTail 1 test) ⟨question :: first, fence⟩ =
      some (test, ⟨question :: first, fence⟩) := by
    rw [read_eq closed', step, Expr.binaryTail]
    simp [Cursor.peek, unknown, Token.isWordIn, kind']
  have choice : read .conditional cursor =
      some (.mk .conditional ⟨test.start, whenFalse.stop⟩ [test, whenTrue, whenFalse],
        ⟨token :: rest, fence⟩) := by
    rw [read_eq closed, step, conditional, found, stop]
    simp [Cursor.peek, Cursor.advance, Cursor.expectPunct, asks, parts, foundTrue, foundFalse]
  rw [read_eq closed, step, assignment, arrow]
  simp [choice, Cursor.peek, Token.isPunctIn, other token.value member]

/-- A call is read with the arguments that stand before its closing parenthesis. -/
theorem read_call {opener closer : Token} {inside : List Token} {args : List Expr}
    (closed : fence.Closes) (opens : opener.isPunct "(" = true) (closes : closer.isPunct ")" = true)
    (found : read .argumentTail ⟨inside, fence⟩ = some (args, ⟨closer :: rest, fence⟩)) :
    read (.memberTail expr) ⟨opener :: inside, fence⟩ =
      read (.memberTail (.mk .call ⟨expr.start, closer.stop⟩ (expr :: args))) ⟨rest, fence⟩ := by
  have arguments : read .arguments ⟨opener :: inside, fence⟩ =
      some ((args, closer), ⟨rest, fence⟩) := by
    rw [read_eq closed, step, Expr.arguments]
    simp [Cursor.expectPunct, Cursor.peek, Cursor.advance, opens, found, closes]
  obtain ⟨kind, value⟩ := Token.isPunct_iff.mp opens
  rw [read_eq closed, step, Expr.memberTail]
  simp [Cursor.peek, Token.isPunct, kind, value, arguments]

/-- A function with a body in braces is read without looking into the body. -/
theorem read_arrow {opener closer mark brace closer' : Token} {first second : List Token}
    (closed : fence.Closes) (opens : opener.isPunct "(" = true) (marks : mark.isPunct "=>" = true)
    (braces : brace.isPunct "\x7b" = true)
    (parameters : Extent.balanced ⟨opener :: first, fence⟩ =
      some (closer, ⟨mark :: brace :: second, fence⟩))
    (body : Extent.balanced ⟨brace :: second, fence⟩ = some (closer', ⟨rest, fence⟩)) :
    read .assignment ⟨opener :: first, fence⟩ =
      some (.mk .other ⟨opener.start, closer'.stop⟩ [], ⟨rest, fence⟩) := by
  obtain ⟨kind, value⟩ := Token.isPunct_iff.mp opens
  obtain ⟨kind', value'⟩ := Token.isPunct_iff.mp marks
  have async : opener.isWord "async" = false := by simp [Token.isWord, kind]
  have type : mark.isPunct ":" = false := by simp [Token.isPunct, value']
  have arrow : (⟨opener :: first, fence⟩ : Cursor).atArrow = true := by
    simp [Cursor.atArrow, Cursor.peek, async, kind, opens, parameters, marks]
  have found : read .arrow ⟨opener :: first, fence⟩ =
      some (.mk .other ⟨opener.start, closer'.stop⟩ [], ⟨rest, fence⟩) := by
    rw [read_eq closed, step, Expr.arrow]
    simp [Cursor.peek, async, Cursor.arrowParameters, opens, parameters, Cursor.arrowType, type,
      Cursor.expectPunct, marks, Cursor.advance, braces, body]
  rw [read_eq closed, step, assignment, arrow, if_pos rfl, found]

/-- No argument stands before a closing parenthesis. -/
theorem argumentTail_closer (closed : fence.Closes) (closes : token.isPunct ")" = true) :
    read .argumentTail ⟨token :: rest, fence⟩ = some ([], ⟨token :: rest, fence⟩) := by
  rw [read_eq closed, step, argumentTail]
  simp [Cursor.peek, closes]

end Expr

/-! ## Atoms -/

/-- A number without sign, point and exponent. -/
structure Digits where
  text : String
  filled : text.toList ≠ []
  digits : text.toList.all Char.isDigit = true

/-- A value without parts but a name: a name, a number, or a call without arguments. -/
inductive Atom where
  | name (word : PlainName)
  | number (digits : Digits)
  | call (function : PlainName)

namespace Atom

/-- The text of an atom. -/
def text : Atom → String
  | .name word => word.text
  | .number digits => digits.text
  | .call function => function.text ++ "()"

/-- The strokes of an atom. -/
def strokes : Atom → List Stroke
  | .name word' => [word word'.text]
  | .number digits => [.lexeme .number digits.text]
  | .call function => [word function.text, .sign "(", .sign ")"]

/-- The expression that is written at an offset. -/
def expr : Atom → Nat → Expr
  | .name word, offset => .mk .identifier ⟨offset, offset + word.text.toList.length⟩ []
  | .number digits, offset =>
    .mk (.literal .number) ⟨offset, offset + digits.text.toList.length⟩ []
  | .call function, offset =>
    .mk .call ⟨offset, offset + (Atom.call function).text.toList.length⟩
      [.mk .identifier ⟨offset, offset + function.text.toList.length⟩ []]

variable {newline before : Bool} {offset least : Nat} {after : List Char} {token fence : Token}
  {rest : List Token}

theorem written_strokes (atom : Atom) : Stroke.written atom.strokes = atom.text.toList := by
  cases atom <;> simp [strokes, text, Stroke.written, Stroke.chars]

theorem text_ne (atom : Atom) : atom.text ≠ "" := by
  cases atom with
  | name word => exact word.text_ne
  | number digits => exact fun none => digits.filled (by rw [← text, none]; rfl)
  | call function => simp [text]

theorem span_expr (atom : Atom) (offset : Nat) :
    (atom.expr offset).span = ⟨offset, offset + atom.text.toList.length⟩ := by
  cases atom <;> rfl

/-- Behind an atom, a solidus divides. -/
theorem allowed_strokes (atom : Atom) : Stroke.allowed before atom.strokes = false := by
  cases atom with
  | name word =>
    have free : word.text ∉ Lexer.regexPreceders := fun member =>
      word.free (by simp [reservedWords, keywords, member])
    simp [strokes, Stroke.allowed, Lexer.allows, Lexer.regexAllowed, free]
  | number digits => rfl
  | call function => rfl

/-- An atom is a phrase. -/
theorem phrase (atom : Atom) : Phrase atom.strokes := by
  cases atom with
  | name word => exact word.phrase
  | number digits =>
    refine ⟨fun ends => ⟨?_, trivial⟩, ?_, .plain rfl .nil, fun _ => rfl⟩
    · rw [Stroke.written, List.nil_append]
      exact Lexer.startsWith_digits digits.filled digits.digits ends
    · obtain ⟨first, others, same⟩ := List.exists_cons_of_ne_nil digits.filled
      have digit : first.isDigit = true :=
        List.all_eq_true.mp digits.digits first (by rw [same]; exact List.mem_cons_self ..)
      refine ⟨first, others, by simp [strokes, Stroke.written, same], ?_⟩
      have inside := Lexer.not_endsChunk_of_isDecimal (Text.isDecimal_of_isDigit digit)
      simp only [Lexer.endsChunk, Bool.or_eq_false_iff] at inside
      exact inside.1.1
  | call function =>
    refine ⟨fun ends => .word function.isWhole rfl
      (.single (by decide) (.single (by decide) trivial)), ?_,
      .plain rfl (.empty (by decide) .nil), fun _ => rfl⟩
    obtain ⟨first, others, same, solid⟩ := function.phrase.solid
    simp only [Stroke.written, Stroke.chars, List.append_nil] at same
    exact ⟨first, others ++ ['(', ')'], by simp [strokes, Stroke.written, Stroke.chars, same],
      solid⟩

/-- A name starts an operand. -/
theorem starts_word (name : PlainName) (span : Span) :
    Expr.Starts ⟨.identifier, name.text, span, newline⟩ :=
  ⟨rfl, name.isWordIn _ _ _ (by decide), rfl, name.isWord _ _ _ (by decide)⟩

/-- The token that an atom starts with starts an operand. -/
theorem starts (atom : Atom) :
    Expr.Starts (⟨Stroke.tokens newline offset atom.strokes ++ rest, fence⟩ : Cursor).peek := by
  cases atom with
  | name word => exact starts_word word _
  | number digits => exact ⟨rfl, rfl, rfl, rfl⟩
  | call function => exact starts_word function _

open Expr (read read_eq)

/-- A name is read as one. -/
theorem read_word (name : PlainName) {span : Span} (closed : fence.Closes) :
    read .callMember ⟨⟨.identifier, name.text, span, newline⟩ :: rest, fence⟩ =
      read (.memberTail (.mk .identifier span [])) ⟨rest, fence⟩ := by
  have other : ∀ word ∈ ["true", "false", "function", "class", "async"], name.text ≠ word :=
    fun word member => name.ne_of_mem (by revert word; decide)
  have primary : read .primary ⟨⟨.identifier, name.text, span, newline⟩ :: rest, fence⟩ =
      some (.mk .identifier span [], ⟨rest, fence⟩) := by
    rw [read_eq closed, Expr.step, Expr.primary]
    simp [Cursor.peek, Cursor.advance, Expr.leaf, other]
  rw [read_eq closed, Expr.step, Expr.callMember]
  simp [Cursor.peek, name.isWord _ _ "new" (by decide), primary]

/-- An atom is read, and reading goes on with the accesses and calls behind it. -/
theorem read_callMember (atom : Atom) (closed : fence.Closes) :
    read .callMember ⟨Stroke.tokens newline offset atom.strokes ++ rest, fence⟩ =
      read (.memberTail (atom.expr offset)) ⟨rest, fence⟩ := by
  cases atom with
  | name word => exact read_word word closed
  | number digits =>
    have primary : read .primary ⟨Stroke.tokens newline offset (number digits).strokes ++ rest,
        fence⟩ = some ((number digits).expr offset, ⟨rest, fence⟩) := by
      rw [read_eq closed, Expr.step, Expr.primary]
      simp [strokes, Stroke.tokens, Cursor.peek, Cursor.advance, Expr.leaf, expr]
    rw [read_eq closed, Expr.step, Expr.callMember]
    simp only [primary]
    simp [strokes, Stroke.tokens, Cursor.peek, Token.isWord]
  | call function =>
    refine (read_word function closed).trans ?_
    refine (Expr.read_call closed rfl rfl (Expr.argumentTail_closer closed rfl)).trans ?_
    have whole : offset + function.text.toList.length + 1 + 1 =
        offset + (call function).text.toList.length := by
      simp [text, Nat.add_assoc]
    rw [expr, ← whole]
    rfl

/-- An atom is an operand before what is detached from it. -/
theorem read_binary (atom : Atom) (closed : fence.Closes) (detached : Expr.Detached token rest) :
    read (.binary least) ⟨Stroke.tokens newline offset atom.strokes ++ token :: rest, fence⟩ =
      read (.binaryTail least (atom.expr offset)) ⟨token :: rest, fence⟩ :=
  Expr.read_operand atom.starts detached closed closed (atom.read_callMember closed)

/-- An atom is no arrow function before a mark that is no arrow. -/
theorem atArrow (atom : Atom) (arrow : token.isPunct "=>" = false) :
    (⟨Stroke.tokens newline offset atom.strokes ++ token :: rest, fence⟩ : Cursor).atArrow =
      false := by
  cases atom with
  | name word => exact Expr.atArrow_name rfl (word.isWord _ _ _ (by decide)) arrow
  | number digits => rfl
  | call function => exact Expr.atArrow_name rfl (function.isWord _ _ _ (by decide)) rfl

/-- An atom is a whole expression before what ends it. -/
theorem read_assignment (atom : Atom) (closed : fence.Closes)
    (closes : token.isPunctIn Expr.closers = true) :
    read .assignment ⟨Stroke.tokens newline offset atom.strokes ++ token :: rest, fence⟩ =
      some (atom.expr offset, ⟨token :: rest, fence⟩) := by
  have arrow : token.isPunct "=>" = false := Expr.isPunct_of_closer closes (by decide)
  exact Expr.read_closed closed closed (atom.atArrow arrow) closes
    (atom.read_binary closed (Expr.detached_of_closer closes))

theorem isPunct_peek (atom : Atom) (mark : String) :
    (⟨Stroke.tokens newline offset atom.strokes ++ rest, fence⟩ : Cursor).peek.isPunct mark =
      false := by
  cases atom <;> rfl

/-- The expression of an atom has its text. -/
theorem slice_expr {source : List Char} (atom : Atom)
    (stands : StandsAt source offset atom.text.toList) :
    (atom.expr offset).span.slice source = atom.text := by
  rw [span_expr]
  exact stands.slice_text

/-- No character of an atom is blank. -/
theorem not_isBlank (atom : Atom) : ∀ c ∈ atom.text.toList, Text.isBlank c = false := by
  have letters (name : PlainName) : ∀ c ∈ name.text.toList, Text.isBlank c = false :=
    fun c member => Lexer.isBlank_of_not_endsChunk (Lexer.not_endsChunk_of_isWord
      (Text.isWord_of_isAlphanum (List.all_eq_true.mp name.isAlphanum c member)))
  cases atom with
  | name word => exact letters word
  | number digits =>
    intro c member
    have digit := List.all_eq_true.mp digits.digits c member
    exact Lexer.isBlank_of_not_endsChunk
      (Lexer.not_endsChunk_of_isDecimal (Text.isDecimal_of_isDigit digit))
  | call function =>
    intro c member
    rw [text, String.toList_append, List.mem_append] at member
    rcases member with member | member
    · exact letters function c member
    · have marks : ("()".toList.any Text.isBlank) = false := by decide
      exact Bool.eq_false_iff.mpr (List.any_eq_false.mp marks c member)

/-! ### Arguments -/

/-- The expressions of atoms with commas between them. -/
def exprs : List Atom → Nat → List Expr
  | [], _ => []
  | atom :: others, offset =>
    atom.expr offset :: exprs others (offset + atom.text.toList.length + 2)

/-- Arguments are read up to the closing parenthesis. -/
theorem read_arguments (atoms : List Atom) (offset : Nat) (closed : fence.Closes)
    (closes : token.isPunct ")" = true) :
    read .argumentTail
        ⟨Stroke.tokens false offset (listed (atoms.map strokes)) ++ token :: rest, fence⟩ =
      some (exprs atoms offset, ⟨token :: rest, fence⟩) := by
  have element (atom : Atom) {token : Token} {rest : List Token} {offset : Nat}
      (closes : token.isPunctIn Expr.closers = true) :
      read .element ⟨Stroke.tokens false offset atom.strokes ++ token :: rest, fence⟩ =
        some (atom.expr offset, ⟨token :: rest, fence⟩) := by
    rw [read_eq closed, Expr.step, Expr.element]
    simp only [atom.isPunct_peek, Bool.false_eq_true, if_false, atom.read_assignment closed closes]
  induction atoms generalizing offset with
  | nil => exact Expr.argumentTail_closer closed closes
  | cons atom others ih =>
    rw [read_eq closed, Expr.step, Expr.argumentTail]
    cases others with
    | nil =>
      obtain ⟨kind, value⟩ := Token.isPunct_iff.mp closes
      have ends : token.isPunctIn Expr.closers = true := by
        simp [Token.isPunctIn, kind, value, Expr.closers]
      simp only [List.map_cons, List.map_nil, listed, atom.isPunct_peek, element atom ends]
      simp [Cursor.peek, Token.isPunct, kind, value, exprs]
    | cons next others =>
      rw [List.map_cons, List.map_cons, Stroke.tokens_listed (atom.phrase.unbroken false),
        List.append_assoc, List.cons_append, written_strokes]
      have later := ih (offset + atom.text.toList.length + 2)
      rw [List.map_cons] at later
      have comma (span : Span) :
          Token.isPunctIn ⟨.punctuator, ",", span, false⟩ Expr.closers = true := rfl
      simp only [atom.isPunct_peek, element atom (comma _)]
      simp [Cursor.peek, Cursor.advance, Token.isPunct, later, exprs]

/-- The arguments have their texts. -/
theorem slices_exprs {source : List Char} (atoms : List Atom) (offset : Nat)
    (stands : StandsAt source offset (Stroke.written (listed (atoms.map strokes)))) :
    (exprs atoms offset).map (fun expr => expr.span.slice source) = atoms.map text := by
  induction atoms generalizing offset with
  | nil => rfl
  | cons atom others ih =>
    cases others with
    | nil =>
      rw [List.map_singleton, listed, written_strokes] at stands
      simp [exprs, atom.slice_expr stands]
    | cons next others =>
      have parts : Stroke.written (listed ((atom :: next :: others).map strokes)) =
          atom.text.toList ++
            (',' :: ' ' :: Stroke.written (listed ((next :: others).map strokes))) := by
        simp [listed, Stroke.written_append, written_strokes]
      rw [parts] at stands
      have later := ih (offset + atom.text.toList.length + 2)
        (stands.within (atom.text.toList ++ [',', ' ']) ([]) (by simp) (by simp; omega))
      rw [exprs, List.map_cons, later, atom.slice_expr stands.left]
      rfl

/-- The tokens of an atom may stand among type arguments. -/
theorem typeArguments?_strokes (atom : Atom) (depth : Int) :
    Extent.typeArguments? depth (Stroke.tokens newline offset atom.strokes ++ rest) =
      Extent.typeArguments? depth rest := by
  cases atom with
  | name word | number digits => exact WrittenType.typeArguments?_cons (.inl (by simp))
  | call function =>
    exact (WrittenType.typeArguments?_cons (.inl (by simp))).trans
      ((WrittenType.typeArguments?_cons (.inr rfl)).trans
        (WrittenType.typeArguments?_cons (.inr rfl)))

theorem unclosed (atom : Atom) (later : Unclosed rest) :
    Unclosed (Stroke.tokens newline offset atom.strokes ++ rest) := fun depth positive =>
  (atom.typeArguments?_strokes depth).trans (later depth positive)

end Atom

/-! ## Operators -/

/-- A binary operator. -/
structure Symbol where
  text : String
  listed : text ∈ binaryPrecedence.map Prod.fst

namespace Symbol

/-- The kind of token that an operator is. -/
def kind (symbol : Symbol) : TokenKind :=
  if ["instanceof", "in"].contains symbol.text then .identifier else .punctuator

/-- The stroke of an operator. -/
def stroke (symbol : Symbol) : Stroke := .lexeme symbol.kind symbol.text

variable {newline : Bool} {span : Span} {rest : List Token}

theorem forall_text {p : String → Prop} (holds : ∀ text ∈ binaryPrecedence.map Prod.fst, p text)
    (symbol : Symbol) : p symbol.text :=
  holds symbol.text symbol.listed

/-- An operator is read before a blank where a solidus divides. -/
theorem startsWith (symbol : Symbol) (after : List Char) :
    Lexer.StartsWith false symbol.kind symbol.text.toList (' ' :: after) := by
  have look := symbol.forall_text (p := fun text =>
    if ["instanceof", "in"].contains text then Lexer.isWhole text.toList = true
    else Lexer.isMark text.toList = true) (by decide)
  rw [kind]
  split at look
  · next word =>
    rw [if_pos word]
    exact Lexer.startsWith_word look rfl
  · next word =>
    rw [if_neg word]
    exact Lexer.startsWith_mark look (Lexer.chunk_cons_of_ends (by decide) after)

theorem solid (symbol : Symbol) (after : List Char) :
    (symbol.text.toList ++ after).head?.any Lexer.isSpace = false := by
  have look := symbol.forall_text (p := fun text =>
    text.toList ≠ [] ∧ text.toList.head?.any Lexer.isSpace = false) (by decide)
  rw [List.head?_append_of_ne_nil _ look.1]
  exact look.2

theorem isBracket_stroke (symbol : Symbol) : symbol.stroke.isBracket = false := by
  have look := symbol.forall_text (p := fun text =>
    text ∉ ["(", "[", "\x7b", ")", "]", "\x7d"]) (by decide)
  simpa [stroke, Stroke.isBracket] using fun _ => look

/-- An operator has a precedence. -/
theorem exists_precedence (symbol : Symbol) (span : Span) (newline : Bool) :
    ∃ precedence, 1 ≤ precedence ∧
      Token.precedence? ⟨symbol.kind, symbol.text, span, newline⟩ = some precedence := by
  have look := symbol.forall_text (p := fun text =>
    (binaryPrecedence.lookup text).any (1 ≤ ·) = true) (by decide)
  obtain ⟨precedence, found, positive⟩ := (Option.any_eq_true _ _).mp look
  refine ⟨precedence, of_decide_eq_true positive, ?_⟩
  rw [Token.precedence?, if_pos, found]
  rw [kind]
  split
  · next word => simpa [Token.isWordIn] using word
  · simp

/-- An operator is neither a mark of its own meaning nor a word that goes on with an operation. -/
theorem other (symbol : Symbol) :
    Token.isPunct ⟨symbol.kind, symbol.text, span, newline⟩ "=>" = false ∧
      Token.isWordIn ⟨symbol.kind, symbol.text, span, newline⟩ ["as", "satisfies"] = false := by
  have look := symbol.forall_text (p := fun text =>
    text ≠ "=>" ∧ text ∉ ["as", "satisfies"]) (by decide)
  exact ⟨by simpa [Token.isPunct] using fun _ => look.1,
    by simpa [Token.isWordIn] using fun _ => look.2⟩

/-- An operator is detached from what stands before it. -/
theorem detached (symbol : Symbol) (unclosed : Unclosed rest) :
    Expr.Detached ⟨symbol.kind, symbol.text, span, newline⟩ rest := by
  have look := symbol.forall_text (p := fun text =>
    text ∉ [".", "?.", "(", "[", "!", "++", "--"]) (by decide)
  refine ⟨?_, ?_, fun angle => ?_⟩
  · simpa [Token.isPunctIn] using fun _ => look
  · rw [kind]
    split <;> simp
  · obtain ⟨kind, value⟩ := Token.isPunct_iff.mp angle
    change symbol.kind = _ at kind
    change symbol.text = _ at value
    rw [kind, value]
    simpa [Extent.typeArguments?, Extent.typeArgumentPuncts] using unclosed 1 (by decide)

end Symbol

/-! ## Entries of objects -/

/-- A property of an object: a name, with an atom unless the name stands for its value. -/
structure Entry where
  key : PlainName
  value : Option Atom

namespace Entry

open Expr (read read_eq)

/-- The property of an entry. -/
def property (entry : Entry) : Property := ⟨entry.key.text, entry.value.map Atom.text⟩

/-- The text of an entry. -/
def text (entry : Entry) : String :=
  match entry.value with
  | some value => entry.key.text ++ ": " ++ value.text
  | none => entry.key.text

/-- The strokes of an entry. -/
def strokes (entry : Entry) : List Stroke :=
  match entry.value with
  | some value => word entry.key.text :: .sign ":" :: space :: value.strokes
  | none => [word entry.key.text]

/-- The value that is written in an entry at an offset. -/
def value? (entry : Entry) (offset : Nat) : Option Expr :=
  entry.value.map fun value => value.expr (offset + entry.key.text.toList.length + 2)

/-- The properties of entries with commas between them. -/
def properties : List Entry → Nat → List (String × Option Span)
  | [], _ => []
  | entry :: others, offset =>
    (entry.key.text, (entry.value? offset).map Expr.span) ::
      properties others (offset + entry.text.toList.length + 2)

/-- The values of entries with commas between them. -/
def values : List Entry → Nat → List Expr
  | [], _ => []
  | entry :: others, offset =>
    (entry.value? offset).toList ++ values others (offset + entry.text.toList.length + 2)

variable {newline : Bool} {offset : Nat} {token fence : Token} {rest : List Token}

theorem written_strokes (entry : Entry) : Stroke.written entry.strokes = entry.text.toList := by
  obtain ⟨key, value⟩ := entry
  cases value <;>
    simp [strokes, text, Stroke.written, Stroke.chars, Atom.written_strokes, space, Filler.chars]

/-- An entry is a phrase. -/
theorem phrase (entry : Entry) : Phrase entry.strokes := by
  obtain ⟨key, value⟩ := entry
  cases value with
  | none => exact key.phrase
  | some value =>
    have phrase := value.phrase
    obtain ⟨first, others, same, solid⟩ := key.phrase.solid
    simp only [Stroke.written, Stroke.chars, List.append_nil] at same
    refine ⟨fun ends => ?_, ⟨first, others ++ ':' :: ' ' :: value.text.toList, ?_, solid⟩,
      .plain rfl (.plain rfl (.plain rfl phrase.paired)), fun newline => phrase.unbroken false⟩
    · exact .word key.isWhole rfl (.single (by decide) (.space (phrase.head _)
        (phrase.legible ends)))
    · simp [strokes, Stroke.written, Stroke.chars, same, Atom.written_strokes, space, Filler.chars]

/-- An entry is read before the comma or the brace behind it. -/
theorem read_entry (entry : Entry) (closed : fence.Closes)
    (closes : token.isPunctIn [",", "\x7d"] = true) :
    read .objectEntry ⟨Stroke.tokens newline offset entry.strokes ++ token :: rest, fence⟩ =
      some ((some (entry.key.text, (entry.value? offset).map Expr.span), entry.value? offset),
        ⟨token :: rest, fence⟩) := by
  obtain ⟨kind, member⟩ := Token.isPunctIn_iff.mp closes
  have members : [",", "\x7d"] ⊆ Expr.closers := by decide
  have ends : token.isPunctIn Expr.closers = true :=
    Token.isPunctIn_iff.mpr ⟨kind, members member⟩
  have other : ∀ value ∈ [",", "\x7d"], value ≠ ":" ∧ value ≠ "(" ∧ value ≠ "<" := by decide
  obtain ⟨key, value⟩ := entry
  have keyed (span : Span) (others : List Token) :
      Cursor.objectKey ⟨⟨.identifier, key.text, span, newline⟩ :: others, fence⟩ =
        some (⟨some key.text, true⟩, ⟨others, fence⟩) := by
    have modifier : Token.isWordIn ⟨.identifier, key.text, span, newline⟩ ["get", "set", "async"] =
        false := key.isWordIn _ _ _ (by decide)
    simp [Cursor.objectKey, Cursor.peek, Cursor.advance, modifier, Token.isPunct]
  rw [read_eq closed, Expr.step, Expr.objectEntry]
  cases value with
  | none =>
    simp only [strokes, Stroke.tokens, List.cons_append, List.nil_append, keyed]
    simp [Cursor.peek, Token.isPunct, Token.isPunctIn, kind, other token.value member, value?]
  | some value =>
    simp only [strokes, Stroke.tokens, Stroke.tokens_space, List.cons_append, keyed]
    simp [Cursor.peek, Cursor.advance, Token.isPunct, value?, value.read_assignment closed ends]

/-- Entries are read up to the closing brace. -/
theorem read_entries (entries : List Entry) (offset : Nat) (closed : fence.Closes)
    (closes : token.isPunct "\x7d" = true) :
    read .objectTail
        ⟨Stroke.tokens false offset (listed (entries.map strokes)) ++ token :: rest, fence⟩ =
      some ((properties entries offset, values entries offset), ⟨token :: rest, fence⟩) := by
  have isPunct_peek (entry : Entry) (offset : Nat) (rest : List Token) (mark : String) :
      (⟨Stroke.tokens false offset entry.strokes ++ rest, fence⟩ : Cursor).peek.isPunct mark =
        false := by
    obtain ⟨key, value⟩ := entry
    cases value <;> rfl
  induction entries generalizing offset with
  | nil =>
    rw [read_eq closed, Expr.step, Expr.objectTail]
    simp [listed, Stroke.tokens, Cursor.peek, closes, properties, values]
  | cons entry others ih =>
    rw [read_eq closed, Expr.step, Expr.objectTail]
    cases others with
    | nil =>
      obtain ⟨kind, value⟩ := Token.isPunct_iff.mp closes
      have ends : token.isPunctIn [",", "\x7d"] = true := by simp [Token.isPunctIn, kind, value]
      simp only [List.map_cons, List.map_nil, listed, isPunct_peek, entry.read_entry closed ends]
      simp [Cursor.peek, Token.isPunct, kind, value, properties, values]
    | cons next others =>
      rw [List.map_cons, List.map_cons, Stroke.tokens_listed (entry.phrase.unbroken false),
        List.append_assoc, List.cons_append, written_strokes]
      have later := ih (offset + entry.text.toList.length + 2)
      rw [List.map_cons] at later
      have comma (span : Span) :
          Token.isPunctIn ⟨.punctuator, ",", span, false⟩ [",", "\x7d"] = true := rfl
      simp only [isPunct_peek, entry.read_entry closed (comma _)]
      simp [Cursor.peek, Cursor.advance, Token.isPunct, later, properties, values]

/-- An entry has the texts of its key and its value. -/
theorem slice_value {source : List Char} (entry : Entry)
    (stands : StandsAt source offset entry.text.toList) :
    (entry.value? offset).map (fun expr => expr.span.slice source) = entry.value.map Atom.text := by
  obtain ⟨key, value⟩ := entry
  cases value with
  | none => rfl
  | some value =>
    have inside : StandsAt source (offset + key.text.toList.length + 2) value.text.toList :=
      stands.within (key.text.toList ++ [':', ' ']) [] (by simp [text]) (by simp; omega)
    simp only [value?, Option.map_some, value.slice_expr inside]

/-- The properties of entries are those that are written. -/
theorem slices_properties {source : List Char} (entries : List Entry) (offset : Nat)
    (stands : StandsAt source offset (Stroke.written (listed (entries.map strokes)))) :
    (properties entries offset).map (fun (key, value) =>
      ({ key, value := value.map fun span => span.slice source } : Property)) =
        entries.map property := by
  induction entries generalizing offset with
  | nil => rfl
  | cons entry others ih =>
    have own (stands : StandsAt source offset entry.text.toList) :
        ({ key := entry.key.text,
           value := ((entry.value? offset).map Expr.span).map fun span => span.slice source } :
          Property) = entry.property := by
      rw [Option.map_map]
      exact congrArg (Property.mk entry.key.text) (entry.slice_value stands)
    cases others with
    | nil =>
      rw [List.map_singleton, listed, written_strokes] at stands
      exact congrArg (· :: []) (own stands)
    | cons next others =>
      have parts : Stroke.written (listed ((entry :: next :: others).map strokes)) =
          entry.text.toList ++
            (',' :: ' ' :: Stroke.written (listed ((next :: others).map strokes))) := by
        simp [listed, Stroke.written_append, written_strokes]
      rw [parts] at stands
      have later := ih (offset + entry.text.toList.length + 2)
        (stands.within (entry.text.toList ++ [',', ' ']) [] (by simp) (by simp; omega))
      rw [properties, List.map_cons, later]
      exact congrArg (· :: _) (own stands.left)

end Entry

end SourceCanvas
