import SourceCanvas.Expr.Parser
import SourceCanvas.Node.Basic
import SourceCanvas.Proofs.Brackets
import SourceCanvas.Proofs.Words

/-!
# Written operations

An operation is a tree of binary operators over names. It is written with one blank around each
operator, and with parentheses around an operand where the precedence asks for them
(`Operation.written`). What is written has its tokens at known places (`Written.tokens`), and these
are the tokens that are read there, whatever follows that could not go on with a name
(`Written.reads`).
-/

namespace SourceCanvas

/-! ## Trees -/

/-- Words that are no names where an operand may stand: they have a value of their own, start an
expression of another kind, or let a regular expression follow. -/
def keywords : List String :=
  ["true", "false", "function", "class"] ++ unaryWords ++ Lexer.regexPreceders

/-- A name that is no keyword. -/
structure Identifier where
  text : String
  whole : Lexer.isWhole text.toList = true
  free : text ∉ keywords

/-- A binary operator. What follows an opening angle bracket may be read as type arguments, so that
one is left out. -/
structure Operator where
  symbol : String
  listed : symbol ∈ binaryPrecedence.map Prod.fst
  plain : symbol ≠ "<"

namespace Operator

/-- The precedence of an operator. -/
def precedence (operator : Operator) : Nat := (binaryPrecedence.lookup operator.symbol).getD 0

/-- Whether an operator goes to the right. -/
def isPower (operator : Operator) : Bool := operator.symbol == "**"

/-- Whether a left operand of a precedence needs no parentheses. -/
def takesLeft (operator : Operator) (precedence : Nat) : Bool :=
  operator.precedence < precedence || operator.precedence == precedence && !operator.isPower

/-- Whether a right operand of a precedence needs no parentheses. -/
def takesRight (operator : Operator) (precedence : Nat) : Bool :=
  operator.precedence < precedence || operator.precedence == precedence && operator.isPower

end Operator

/-- The kind of token that an operator is. -/
def Operator.kind (operator : Operator) : TokenKind :=
  if ["instanceof", "in"].contains operator.symbol then .identifier else .punctuator

/-- An operator at an offset. -/
def Operator.token (operator : Operator) (offset : Nat) : Token :=
  .inLine operator.kind operator.symbol offset

/-- A tree of operators over names. -/
inductive Operation where
  | name (identifier : Identifier)
  | apply (operator : Operator) (left right : Operation)

/-- A tree of operators over names with parentheses. -/
inductive Written where
  | name (identifier : Identifier)
  | paren (inner : Written)
  | apply (operator : Operator) (left right : Written)

namespace Written

/-- The precedence of what is written: above that of all operators where it is closed. -/
def precedence : Written → Nat
  | .name _ | .paren _ => 13
  | .apply operator _ _ => operator.precedence

/-- An operand, in parentheses unless it fits. -/
def operand (written : Written) (fits : Bool) : Written := if fits then written else .paren written

/-- The text, with one blank around each operator. -/
def text : Written → String
  | .name identifier => identifier.text
  | .paren inner => "(" ++ inner.text ++ ")"
  | .apply operator left right => left.text ++ " " ++ operator.symbol ++ " " ++ right.text

end Written

/-- The tokens of what is written at an offset. -/
def Written.tokens : Written → Nat → List Token
  | .name identifier, offset => [.inLine .identifier identifier.text offset]
  | .paren inner, offset =>
    .inLine .punctuator "(" offset ::
      (inner.tokens (offset + 1) ++ [.inLine .punctuator ")" (offset + inner.text.length + 1)])
  | .apply operator left right, offset =>
    left.tokens offset ++ operator.token (offset + left.text.length + 1) ::
      right.tokens (offset + left.text.length + operator.symbol.length + 2)

/-- The nodes of the operators of what is written at an offset, below a parent: each before those of
its operands. The operands are given as they are written, parentheses make no node. -/
def Written.nodes : Written → Option String → Nat → List Node
  | .name _, _, _ => []
  | .paren inner, parent, offset => inner.nodes parent (offset + 1)
  | .apply operator left right, parent, offset =>
    let span : Span := ⟨offset, offset + (Written.apply operator left right).text.length⟩
    let id := nodeId span.start span.stop NodeKind.binaryOp.name
    let attributes : BinaryOpAttributes :=
      { operator := operator.symbol, left := some left.text, right := some right.text }
    { id, content := .typed (.binaryOp attributes), parent, span := some span } ::
      (left.nodes (some id) offset ++
        right.nodes (some id) (offset + left.text.length + operator.symbol.length + 2))

/-- An operation with parentheses around an operand exactly where its precedence requires it. -/
def Operation.written : Operation → Written
  | .name identifier => .name identifier
  | .apply operator left right =>
    .apply operator (left.written.operand (operator.takesLeft left.written.precedence))
      (right.written.operand (operator.takesRight right.written.precedence))

/-- Each operand that is not in parentheses fits its operator. -/
def Written.Proper : Written → Prop
  | .name _ => True
  | .paren inner => inner.Proper
  | .apply operator left right =>
    (operator.takesLeft left.precedence = true ∧ left.Proper) ∧
      operator.takesRight right.precedence = true ∧ right.Proper

/-! ## Operators -/

variable {kind : TokenKind} {first : Char} {value : String} {after : List Char} {offset : Nat}
  {tokens : List Token} {outcome : Except LexicalError Bool} {written : Written}

namespace Operator

theorem forall_symbol {p : String → Prop}
    (holds : ∀ symbol ∈ binaryPrecedence.map Prod.fst, symbol ≠ "<" → p symbol)
    (operator : Operator) : p operator.symbol :=
  holds operator.symbol operator.listed operator.plain

theorem lookup (operator : Operator) :
    binaryPrecedence.lookup operator.symbol = some operator.precedence :=
  operator.forall_symbol (p := fun symbol =>
    binaryPrecedence.lookup symbol = some ((binaryPrecedence.lookup symbol).getD 0)) (by decide)

theorem precedence_pos (operator : Operator) : 1 ≤ operator.precedence :=
  operator.forall_symbol (p := fun symbol => 1 ≤ (binaryPrecedence.lookup symbol).getD 0)
    (by decide)

theorem precedence_lt (operator : Operator) : operator.precedence < 13 :=
  operator.forall_symbol (p := fun symbol => (binaryPrecedence.lookup symbol).getD 0 < 13)
    (by decide)

/-- An operator that goes to the right is told by its precedence. -/
theorem isPower_eq (operator : Operator) : operator.isPower = (operator.precedence == 12) :=
  operator.forall_symbol (p := fun symbol =>
    (symbol == "**") = ((binaryPrecedence.lookup symbol).getD 0 == 12)) (by decide)

end Operator

/-- An operator is a word or a punctuator. -/
theorem Operator.kind_cases (operator : Operator) :
    operator.kind = .identifier ∧ operator.symbol ∈ ["instanceof", "in"] ∨
      operator.kind = .punctuator := by
  rw [kind]
  split
  · next word => exact .inl ⟨rfl, by simpa using word⟩
  · exact .inr rfl

/-- An operator is read before a blank. -/
theorem Operator.startsWith (operator : Operator) (after : List Char) :
    Lexer.StartsWith false operator.kind operator.symbol.toList (' ' :: after) := by
  have look := operator.forall_symbol (p := fun symbol =>
    if ["instanceof", "in"].contains symbol then Lexer.isWhole symbol.toList = true
    else Lexer.isMark symbol.toList = true) (by decide)
  rw [kind]
  split at look
  · next word =>
    rw [if_pos word]
    exact Lexer.startsWith_word look rfl
  · next word =>
    rw [if_neg word]
    exact Lexer.startsWith_mark look (Lexer.chunk_cons_of_ends (by decide) after)

/-- An operator starts with no blank. -/
theorem Operator.solid (operator : Operator) (after : List Char) :
    (operator.symbol.toList ++ after).head?.any Lexer.isSpace = false := by
  have look := operator.forall_symbol (p := fun symbol =>
    symbol.toList ≠ [] ∧ symbol.toList.head?.any Lexer.isSpace = false) (by decide)
  rw [List.head?_append_of_ne_nil _ look.1]
  exact look.2

/-- An operand binds tighter than every operator where it is closed, so parentheses make it fit. -/
theorem Written.proper_operand {written : Written} {operator : Operator} (proper : written.Proper) :
    (operator.takesLeft (written.operand (operator.takesLeft written.precedence)).precedence =
        true ∧
      (written.operand (operator.takesLeft written.precedence)).Proper) ∧
    operator.takesRight (written.operand (operator.takesRight written.precedence)).precedence =
        true ∧
      (written.operand (operator.takesRight written.precedence)).Proper := by
  have closed := operator.precedence_lt
  have left : operator.takesLeft 13 = true := by simp [Operator.takesLeft, closed]
  have right : operator.takesRight 13 = true := by simp [Operator.takesRight, closed]
  refine ⟨?_, ?_⟩
  · cases fits : operator.takesLeft written.precedence with
    | true => exact ⟨fits, proper⟩
    | false => exact ⟨left, proper⟩
  · cases fits : operator.takesRight written.precedence with
    | true => exact ⟨fits, proper⟩
    | false => exact ⟨right, proper⟩

/-- Parentheses stand wherever they are required. -/
theorem Operation.proper_written (operation : Operation) : operation.written.Proper := by
  induction operation with
  | name identifier => trivial
  | apply operator left right leftProper rightProper =>
    exact ⟨(Written.proper_operand leftProper).1, (Written.proper_operand rightProper).2⟩

example :
    let name (text : String) (whole : Lexer.isWhole text.toList = true) (free : text ∉ keywords) :=
      Operation.name ⟨text, whole, free⟩
    let sum := Operation.apply ⟨"+", by decide, by decide⟩
      (name "a" (by decide) (by decide)) (name "b" (by decide) (by decide))
    let product := Operation.apply ⟨"*", by decide, by decide⟩ sum
      (name "c" (by decide) (by decide))
    product.written.text = "(a + b) * c" := by
  decide

/-! ## Tokens -/

theorem text_length_apply (operator : Operator) (left right : Written) :
    (Written.apply operator left right).text.length =
      left.text.length + operator.symbol.length + right.text.length + 2 := by
  simp only [Written.text, String.length_append]
  have blank : " ".length = 1 := rfl
  omega

theorem text_length_paren (inner : Written) :
    (Written.paren inner).text.length = inner.text.length + 2 := by
  simp only [Written.text, String.length_append]
  have opener : "(".length = 1 := rfl
  have closer : ")".length = 1 := rfl
  omega

/-- What is written starts with no blank. -/
theorem Written.solid (written : Written) (after : List Char) :
    (written.text.toList ++ after).head?.any Lexer.isSpace = false := by
  induction written generalizing after with
  | name identifier =>
    have whole := identifier.whole
    rw [text]
    cases same : identifier.text.toList with
    | nil =>
      rw [same] at whole
      cases whole
    | cons c rest =>
      rw [same] at whole
      exact (Lexer.startsWord_cases (Bool.and_eq_true_iff.mp whole).1).1
  | paren inner => simp [text, Lexer.isSpace]
  | apply operator left right leftSolid =>
    simp only [text, String.toList_append, List.append_assoc]
    exact leftSolid _

/-- What is written is read as its tokens. It may stand after anything, and before all that cannot
go on with a name; behind it a solidus divides. -/
theorem Written.reads (written : Written) {previous : Option Token}
    (ends : after.head?.any Lexer.continuesWord = false)
    (later : ∀ token, Lexer.regexAllowed (some token) = false →
      Lexer.Reads (some token) false (offset + written.text.length) after tokens outcome) :
    Lexer.Reads previous false offset (written.text.toList ++ after)
      (written.tokens offset ++ tokens) outcome := by
  induction written generalizing previous offset after tokens with
  | name identifier =>
    have other : identifier.text ∉ Lexer.regexPreceders := fun member =>
      identifier.free (List.mem_append_right _ member)
    have division :
        Lexer.regexAllowed (some (.inLine .identifier identifier.text offset)) = false := by
      simpa [Lexer.regexAllowed, Token.inLine] using other
    exact .token (Lexer.startsWith_word identifier.whole ends) rfl rfl (later _ division)
  | paren inner ih =>
    have parts : (Written.paren inner).text.toList ++ after =
        "(".toList ++ (inner.text.toList ++ (")".toList ++ after)) := by
      simp [text]
    rw [parts, Written.tokens, List.cons_append, List.append_assoc]
    have opened : offset + "(".length = offset + 1 := rfl
    refine .token (Lexer.startsWith_single (by decide)) rfl opened (ih rfl fun token _ => ?_)
    have place : offset + 1 + inner.text.length = offset + inner.text.length + 1 := by omega
    have closed : offset + inner.text.length + 1 + ")".length =
        offset + (Written.paren inner).text.length := by
      rw [text_length_paren]
      rfl
    rw [place]
    exact .token (Lexer.startsWith_single (by decide)) rfl closed (later _ rfl)
  | apply operator left right leftReads rightReads =>
    have parts : (Written.apply operator left right).text.toList ++ after =
        left.text.toList ++ (' ' :: (operator.symbol.toList ++
          (' ' :: (right.text.toList ++ after)))) := by
      simp [text]
    rw [parts, Written.tokens, List.append_assoc]
    refine leftReads rfl fun token division => ?_
    refine .blank (operator.solid _) rfl ?_
    refine .token (operator.startsWith _) division rfl ?_
    refine .blank (right.solid _) rfl ?_
    have place : offset + left.text.length + 1 + operator.symbol.length + 1 =
        offset + left.text.length + operator.symbol.length + 2 := by
      omega
    have length : offset + left.text.length + operator.symbol.length + 2 + right.text.length =
        offset + (Written.apply operator left right).text.length := by
      rw [text_length_apply]
      omega
    rw [place]
    exact rightReads ends fun token division => length ▸ later token division

/-! ## Brackets -/

/-- An operator is no bracket. -/
theorem Operator.isPunctIn_token (operator : Operator) (offset : Nat) (marks : List String)
    (other : ∀ mark ∈ marks, mark = "<" ∨ mark ∉ binaryPrecedence.map Prod.fst) :
    (operator.token offset).isPunctIn marks = false := by
  refine Bool.eq_false_iff.mpr fun mark => ?_
  rw [Token.isPunctIn_iff] at mark
  rcases other operator.symbol mark.2 with same | absent
  · exact operator.plain same
  · exact absent operator.listed

/-- A word is no bracket. -/
theorem balanced_word (word : String) (offset : Nat) :
    Lexer.Balanced [.inLine .identifier word offset] :=
  .other nofun nofun .nil

/-- The brackets of what is written are nested. -/
theorem Written.balanced (written : Written) (offset : Nat) :
    Lexer.Balanced (written.tokens offset) := by
  induction written generalizing offset with
  | name identifier => exact balanced_word identifier.text offset
  | paren inner ih => exact .pair ⟨rfl, rfl, rfl⟩ (ih _) .nil
  | apply operator left right leftNested rightNested =>
    have opens (offset : Nat) : (operator.token offset).isOpener = false :=
      operator.isPunctIn_token offset ["(", "[", "\x7b"] (by decide)
    have closes (offset : Nat) : (operator.token offset).isCloser = false :=
      operator.isPunctIn_token offset [")", "]", "\x7d"] (by decide)
    exact (leftNested _).append (.other (by simp [opens]) (by simp [closes]) (rightNested _))

/-! ## Declarations -/

/-- The declaration of a variable whose value is written. -/
def Written.declaration (written : Written) : String := "const v = " ++ written.text ++ ";"

/-- The tokens of the declaration. -/
def Written.declarationTokens (written : Written) : List Token :=
  .inLine .identifier "const" 0 :: .inLine .identifier "v" 6 :: .inLine .punctuator "=" 8 ::
    (written.tokens 10 ++ [.inLine .punctuator ";" (10 + written.text.length)])

theorem Written.tokenize_declaration (written : Written) :
    tokenize written.declaration =
      .ok (written.declarationTokens ++ [.atEnd written.declaration.length false]) := by
  have parts : written.declaration.toList =
      "const".toList ++ ' ' :: ("v".toList ++ ' ' :: ("=".toList ++ ' ' ::
        (written.text.toList ++ (";".toList ++ [])))) := by
    simp [declaration]
  have reads : Lexer.Reads none false 0 written.declaration.toList written.declarationTokens
      (.ok false) := by
    rw [parts]
    refine .token (Lexer.startsWith_word (by decide) rfl) rfl rfl (.blank rfl rfl ?_)
    refine .token (Lexer.startsWith_word (by decide) rfl) rfl rfl (.blank rfl rfl ?_)
    refine .token (Lexer.startsWith_mark (by decide) rfl) rfl rfl (.blank (written.solid _) rfl ?_)
    refine written.reads rfl fun token _ => ?_
    exact .token (Lexer.startsWith_single (by decide)) rfl rfl .ended
  have nested : Lexer.Balanced written.declarationTokens := by
    have closed : Lexer.Balanced [.inLine .punctuator ";" (10 + written.text.length)] :=
      .other nofun nofun .nil
    exact .other nofun nofun (.other nofun nofun (.other nofun nofun
      ((written.balanced 10).append closed)))
  have matched := nested.openBrackets [] []
  rw [List.append_nil] at matched
  rw [tokenize_of_pieces (Lexer.pieces_of_reads reads (Nat.le_refl _)), matched]
  rfl

end SourceCanvas
