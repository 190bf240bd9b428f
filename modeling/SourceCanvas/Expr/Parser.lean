import SourceCanvas.Expr.Basic
import SourceCanvas.Token.Descent
import SourceCanvas.Token.Extent

/-!
# Reading expressions

A reader takes a cursor and gives an expression with the cursor after it, or nothing where the
tokens are no expression that it knows. Binary operators are read by precedence, all to the left but
the power. The readers call each other: each has a task (`Expr.Task`) and is given the readers to go
on with. `Expr.readers` descend to a depth; `Cursor.fuel` is enough for the tokens that are left.
-/

namespace SourceCanvas

/-- The precedence of the binary operators. -/
def binaryPrecedence : List (String × Nat) :=
  [("??", 1), ("||", 2), ("&&", 3), ("|", 4), ("^", 5), ("&", 6),
    ("==", 7), ("!=", 7), ("===", 7), ("!==", 7),
    ("<", 8), (">", 8), ("<=", 8), (">=", 8), ("instanceof", 8), ("in", 8),
    ("<<", 9), (">>", 9), (">>>", 9),
    ("+", 10), ("-", 10), ("*", 11), ("/", 11), ("%", 11), ("**", 12)]

/-- The operators that assign. -/
def assignmentOperators : List String :=
  ["=", "+=", "-=", "*=", "/=", "%=", "**=", "<<=", ">>=", ">>>=", "&=", "|=", "^=", "&&=", "||=",
    "??="]

/-- The operators before their operand. -/
def unaryOperators : List String := ["!", "~", "+", "-", "++", "--"]

/-- The operators before their operand that are words. -/
def unaryWords : List String := ["typeof", "void", "delete", "await"]

/-- The precedence of a token as a binary operator. -/
def Token.precedence? (token : Token) : Option Nat :=
  if token.kind = .punctuator || token.isWordIn ["instanceof", "in"] then
    binaryPrecedence.lookup token.value
  else
    none

/-- The precedence that operators to the right of one have to have. -/
def nextPrecedence (operator : String) (precedence : Nat) : Nat :=
  if operator = "**" then precedence else precedence + 1

/-- How deep the readers of expressions may go for the tokens that are left. -/
def Cursor.fuel (cursor : Cursor) : Nat := 20 * (cursor.size + 2)

/-- A name after a point, which may be private. -/
def Cursor.memberName (cursor : Cursor) : Option (Token × Cursor) :=
  (cursor.skipPunct "#").expectIdentifier

/-- The words that may stand before the name of a parameter. -/
def parameterModifiers : List String := ["public", "private", "protected", "readonly"]

/-- The tokens of a parameter after its modifiers. -/
def dropModifiers : List Token → List Token
  | word :: next :: rest =>
    if word.isWordIn parameterModifiers && next.kind = .identifier then
      dropModifiers (next :: rest)
    else
      word :: next :: rest
  | rest => rest

/-- Whether an arrow function comes next. -/
def Cursor.atArrow (cursor : Cursor) : Bool :=
  let next := cursor.peekAt 1
  let isAsync := cursor.peek.isWord "async" && (next.kind == .identifier || next.isPunct "(") &&
    !next.newlineBefore
  let cursor := if isAsync then cursor.advance else cursor
  if cursor.peek.kind = .identifier then
    (cursor.peekAt 1).isPunct "=>"
  else if !cursor.peek.isPunct "(" then
    false
  else
    match Extent.balanced cursor with
    | none => false
    | some (_, after) =>
      after.peek.isPunct "=>" ||
        (after.peek.isPunct ":" &&
          match Extent.type? after.advance ⟨["=>", ";", ",", ")"], false⟩ with
          | some (_, after) => after.peek.isPunct "=>"
          | none => false)

/-- Reads the parameters of an arrow function, a name or what stands in parentheses, and gives their
last token. -/
def Cursor.arrowParameters (cursor : Cursor) : Option (Token × Cursor) :=
  if cursor.peek.isPunct "(" then Extent.balanced cursor else cursor.expectIdentifier

/-- Passes over the type of what an arrow function gives, if a colon comes next. -/
def Cursor.arrowType (cursor : Cursor) : Option Cursor :=
  if cursor.peek.isPunct ":" then
    (Extent.type? cursor.advance ⟨["=>"], false⟩).map (·.2)
  else
    some cursor

/-- Reads the name of a parameter or the pattern in its place, and gives the last token. -/
def Cursor.parameterName (cursor : Cursor) : Option (Token × Cursor) :=
  if cursor.peek.isPunctIn ["\x7b", "["] then Extent.balanced cursor else cursor.expectIdentifier

/-- Reads the type of a parameter, if a colon comes next. -/
def Cursor.parameterType (cursor : Cursor) : Option (Option Span × Cursor) :=
  if cursor.peek.isPunct ":" then
    (Extent.type? cursor.advance ⟨[",", ")", "="], false⟩).map fun (span, cursor) =>
      (some span, cursor)
  else
    some (none, cursor)

/-- Reads a function type annotation that a body has to follow, if a colon comes next. -/
def Cursor.resultType (cursor : Cursor) (stops : List String) : Option (Option Span × Cursor) :=
  if cursor.peek.isPunct ":" then
    (Extent.type? cursor.advance ⟨stops, true⟩).map fun (span, cursor) => (some span, cursor)
  else
    some (none, cursor)

/-- Reads a body in braces without looking into it, and gives the closing brace. -/
def Cursor.closedBody (cursor : Cursor) : Option (Token × Cursor) :=
  if cursor.peek.isPunct "\x7b" then Extent.balanced cursor else none

/-- A key of an object: a computed one has no text, and only a word may stand for its value. -/
structure ObjectKey where
  text : Option String
  isWord : Bool

/-- Reads the key of a property of an object, after the words that make it an accessor. -/
def Cursor.objectKey (cursor : Cursor) : Option (ObjectKey × Cursor) :=
  let cursor :=
    if cursor.peek.isWordIn ["get", "set", "async"] &&
        !(cursor.peekAt 1).isPunctIn [":", ",", "(", "\x7d"] then
      cursor.advance
    else
      cursor
  let token := cursor.peek
  if token.isPunct "[" then
    (Extent.balanced cursor).map fun (_, cursor) => (⟨none, false⟩, cursor)
  else if token.kind = .identifier || token.kind = .string || token.kind = .number then
    some (⟨some token.value, token.kind = .identifier⟩, cursor.advance)
  else
    none

namespace Expr

/-! ## Tasks -/

/-- What there is to read in expressions, with what has been read before where a reader goes on
with that. -/
inductive Task where
  | assignment
  | arrow
  | conditional
  | binary (least : Nat)
  | binaryTail (least : Nat) (left : Expr)
  | unary
  | callMember
  | memberPath (target : Expr)
  | memberTail (expr : Expr)
  | optionalTail (expr : Expr)
  | arguments
  | argumentTail
  | element
  | primary
  | functionExpression
  | arrayTail
  | objectTail
  | objectEntry
  | parameterList
  | parameterTail
  | parameter
  | decorators

/-- What is found by a task: an expression, unless it reads a list, a part of an object or
parameters. -/
@[reducible] def Task.Found : Task → Type
  | .arguments => List Expr × Token
  | .argumentTail | .arrayTail => List Expr
  | .objectTail => List (String × Option Span) × List Expr
  | .objectEntry => Option (String × Option Span) × Option Expr
  | .parameterList | .parameterTail => List ParameterSpans
  | .parameter => ParameterSpans
  | .decorators => Unit
  | _ => Expr

/-- What is found by a task, with the cursor after it. -/
abbrev Task.Answer (task : Task) : Type := Option (task.Found × Cursor)

/-- The readers of expressions. -/
abbrev Readers : Type := Answers Task.Answer

section Readers

variable (next : Readers)

/-- Reads an expression: an arrow function, an assignment, or a choice. -/
def assignment (cursor : Cursor) : Option (Expr × Cursor) :=
  if cursor.atArrow then
    next .arrow cursor
  else do
    let (left, cursor) ← next .conditional cursor
    if cursor.peek.isPunctIn assignmentOperators then
      let (right, cursor) ← next .assignment cursor.advance
      some (.mk .other ⟨left.start, right.stop⟩ [right], cursor)
    else
      some (left, cursor)

/-- Reads an arrow function. A body in braces is not looked into. -/
def arrow (cursor : Cursor) : Option (Expr × Cursor) := do
  let start := cursor.peek.start
  let cursor :=
    if cursor.peek.isWord "async" && !(cursor.peekAt 1).isPunct "=>" then cursor.advance
    else cursor
  let (_, cursor) ← cursor.arrowParameters
  let cursor ← cursor.arrowType
  let (_, cursor) ← cursor.expectPunct "=>"
  if cursor.peek.isPunct "\x7b" then
    let (closer, cursor) ← Extent.balanced cursor
    some (.mk .other ⟨start, closer.stop⟩ [], cursor)
  else
    let (body, cursor) ← next .assignment cursor
    some (.mk .other ⟨start, body.stop⟩ [body], cursor)

/-- Reads a choice, or an operation where no question mark follows it. -/
def conditional (cursor : Cursor) : Option (Expr × Cursor) := do
  let (test, cursor) ← next (.binary 1) cursor
  if cursor.peek.isPunct "?" then
    let (whenTrue, cursor) ← next .assignment cursor.advance
    let (_, cursor) ← cursor.expectPunct ":"
    let (whenFalse, cursor) ← next .assignment cursor
    some (.mk .conditional ⟨test.start, whenFalse.stop⟩ [test, whenTrue, whenFalse], cursor)
  else
    some (test, cursor)

/-- Reads operations whose operators have at least a given precedence. -/
def binary (least : Nat) (cursor : Cursor) : Option (Expr × Cursor) := do
  let (left, cursor) ← next .unary cursor
  next (.binaryTail least left) cursor

/-- Goes on with an operation after its left operand. -/
def binaryTail (least : Nat) (left : Expr) (cursor : Cursor) : Option (Expr × Cursor) :=
  let token := cursor.peek
  if token.isWordIn ["as", "satisfies"] && !token.newlineBefore then do
    let (stop, cursor) ← Extent.assertedType cursor.advance
    next (.binaryTail least (.mk .other ⟨left.start, stop⟩ [left])) cursor
  else
    match token.precedence? with
    | none => some (left, cursor)
    | some precedence =>
      if precedence < least then
        some (left, cursor)
      else do
        let (right, cursor) ←
          next (.binary (nextPrecedence token.value precedence)) cursor.advance
        next (.binaryTail least
          (.mk (.binary token.value) ⟨left.start, right.stop⟩ [left, right])) cursor

/-- Reads an operand with the operators before and after it. A minus before a number belongs to the
number. -/
def unary (cursor : Cursor) : Option (Expr × Cursor) :=
  let token := cursor.peek
  if token.isPunctIn unaryOperators ||
      (token.isWordIn unaryWords && !(cursor.peekAt 1).isPunctIn [")", ";", ","]) then do
    let (operand, cursor) ← next .unary cursor.advance
    if token.value = "-" && operand.form = .literal .number then
      some (.mk (.literal .number) ⟨token.start, operand.stop⟩ [], cursor)
    else
      some (.mk .other ⟨token.start, operand.stop⟩ [operand], cursor)
  else if token.isPunct "<" then
    none
  else do
    let (expr, cursor) ← next .callMember cursor
    let following := cursor.peek
    if following.isPunctIn ["++", "--"] && !following.newlineBefore then
      some (.mk .other ⟨expr.start, following.stop⟩ [expr], cursor.advance)
    else
      some (expr, cursor)

/-- Reads a simple expression with all calls and accesses after it. -/
def callMember (cursor : Cursor) : Option (Expr × Cursor) :=
  let token := cursor.peek
  if token.isWord "new" && !(cursor.peekAt 1).isPunct "." then do
    let (target, cursor) ← next .primary cursor.advance
    let (target, cursor) ← next (.memberPath target) cursor
    if cursor.peek.isPunct "(" then
      let ((args, closer), cursor) ← next .arguments cursor
      next (.memberTail (.mk .other ⟨token.start, closer.stop⟩ (target :: args))) cursor
    else
      next (.memberTail (.mk .other ⟨token.start, target.stop⟩ [target])) cursor
  else do
    let (expr, cursor) ← next .primary cursor
    next (.memberTail expr) cursor

/-- Reads names with points after the class of a new object. -/
def memberPath (target : Expr) (cursor : Cursor) : Option (Expr × Cursor) :=
  if cursor.peek.isPunct "." then do
    let (name, cursor) ← cursor.advance.memberName
    next (.memberPath (.mk (.member name.value) ⟨target.start, name.stop⟩ [target])) cursor
  else
    some (target, cursor)

/-- Goes on with calls and accesses after an expression. -/
def memberTail (expr : Expr) (cursor : Cursor) : Option (Expr × Cursor) :=
  let token := cursor.peek
  if token.isPunct "." then do
    let (name, cursor) ← cursor.advance.memberName
    next (.memberTail (.mk (.member name.value) ⟨expr.start, name.stop⟩ [expr])) cursor
  else if token.isPunct "?." then
    next (.optionalTail expr) cursor.advance
  else if token.isPunct "(" then do
    let ((args, closer), cursor) ← next .arguments cursor
    next (.memberTail (.mk .call ⟨expr.start, closer.stop⟩ (expr :: args))) cursor
  else
    match if token.isPunct "<" then Extent.typeArguments? 0 cursor.rest else none with
    | some rest => next (.memberTail expr) (cursor.move rest)
    | none =>
      if token.isPunct "[" then do
        let (index, cursor) ← next .assignment cursor.advance
        let (closer, cursor) ← cursor.expectPunct "]"
        next (.memberTail (.mk .other ⟨expr.start, closer.stop⟩ [expr, index])) cursor
      else if (token.kind = .template || token.isPunct "!") && !token.newlineBefore then
        next (.memberTail (.mk .other ⟨expr.start, token.stop⟩ [expr])) cursor.advance
      else
        some (expr, cursor)

/-- Goes on after a question mark with a point. -/
def optionalTail (expr : Expr) (cursor : Cursor) : Option (Expr × Cursor) :=
  if cursor.peek.isPunct "(" then do
    let ((args, closer), cursor) ← next .arguments cursor
    next (.memberTail (.mk .other ⟨expr.start, closer.stop⟩ (expr :: args))) cursor
  else if cursor.peek.isPunct "[" then do
    let (index, cursor) ← next .assignment cursor.advance
    let (closer, cursor) ← cursor.expectPunct "]"
    next (.memberTail (.mk .other ⟨expr.start, closer.stop⟩ [expr, index])) cursor
  else do
    let (name, cursor) ← cursor.memberName
    next (.memberTail (.mk .other ⟨expr.start, name.stop⟩ [expr])) cursor

/-- Reads arguments in parentheses, and gives the closing one as well. -/
def arguments (cursor : Cursor) : Option ((List Expr × Token) × Cursor) := do
  let (_, cursor) ← cursor.expectPunct "("
  let (args, cursor) ← next .argumentTail cursor
  let (closer, cursor) ← cursor.expectPunct ")"
  some ((args, closer), cursor)

/-- Reads the arguments up to the closing parenthesis. -/
def argumentTail (cursor : Cursor) : Option (List Expr × Cursor) :=
  if cursor.peek.isPunct ")" then
    some ([], cursor)
  else do
    let (argument, cursor) ← next .element cursor
    if cursor.peek.isPunct "," then
      let (args, cursor) ← next .argumentTail cursor.advance
      some (argument :: args, cursor)
    else if cursor.peek.isPunct ")" then
      some ([argument], cursor)
    else
      none

/-- Reads an element of a list, which may be spread out. -/
def element (cursor : Cursor) : Option (Expr × Cursor) :=
  if cursor.peek.isPunct "..." then do
    let start := cursor.peek.start
    let (inner, cursor) ← next .assignment cursor.advance
    some (.mk .other ⟨start, inner.stop⟩ [inner], cursor)
  else
    next .assignment cursor

/-- Reads an expression without operators. -/
def primary (cursor : Cursor) : Option (Expr × Cursor) :=
  let token := cursor.peek
  match token.kind with
  | .identifier =>
    if token.value = "true" || token.value = "false" then
      some (.leaf (.literal .boolean) token, cursor.advance)
    else if token.value = "function" ||
        (token.value = "async" && (cursor.peekAt 1).isWord "function") then
      next .functionExpression cursor
    else if token.value = "class" then
      none
    else
      some (.leaf .identifier token, cursor.advance)
  | .number => some (.leaf (.literal .number) token, cursor.advance)
  | .string => some (.leaf (.literal .string) token, cursor.advance)
  | .template | .regex => some (.leaf .other token, cursor.advance)
  | .punctuator =>
    if token.value = "(" then do
      let (inner, cursor) ← next .assignment cursor.advance
      let (closer, cursor) ← cursor.expectPunct ")"
      some (.mk .paren ⟨token.start, closer.stop⟩ [inner], cursor)
    else if token.value = "[" then do
      let (elements, cursor) ← next .arrayTail cursor.advance
      let (closer, cursor) ← cursor.expectPunct "]"
      some (.mk .other ⟨token.start, closer.stop⟩ elements, cursor)
    else if token.value = "\x7b" then do
      let ((properties, parts), cursor) ← next .objectTail cursor.advance
      let (closer, cursor) ← cursor.expectPunct "\x7d"
      some (.mk (.object properties) ⟨token.start, closer.stop⟩ parts, cursor)
    else
      none
  | .eof => none

/-- Reads a function as an expression. Its body is not looked into. -/
def functionExpression (cursor : Cursor) : Option (Expr × Cursor) := do
  let start := cursor.peek.start
  let cursor := (if cursor.peek.isWord "async" then cursor.advance else cursor).advance
  let cursor := cursor.skipPunct "*"
  let cursor := if cursor.peek.kind = .identifier then cursor.advance else cursor
  let cursor ← Extent.typeParameters cursor
  let (_, cursor) ← next .parameterList cursor
  let (_, cursor) ← cursor.resultType [";"]
  let (closer, cursor) ← cursor.closedBody
  some (.mk .other ⟨start, closer.stop⟩ [], cursor)

/-- Reads the elements of an array, some of which may be left out. -/
def arrayTail (cursor : Cursor) : Option (List Expr × Cursor) :=
  if cursor.peek.isPunct "]" then
    some ([], cursor)
  else if cursor.peek.isPunct "," then
    next .arrayTail cursor.advance
  else do
    let (first, cursor) ← next .element cursor
    if cursor.peek.isPunctIn [",", "]"] then
      let (elements, cursor) ← next .arrayTail cursor
      some (first :: elements, cursor)
    else
      none

/-- Reads the properties of an object: the keys with the spans of their values, and the values. -/
def objectTail (cursor : Cursor) :
    Option ((List (String × Option Span) × List Expr) × Cursor) :=
  if cursor.peek.isPunct "\x7d" then
    some (([], []), cursor)
  else do
    let ((property, value), cursor) ← next .objectEntry cursor
    if cursor.peek.isPunct "," then
      let ((properties, values), cursor) ← next .objectTail cursor.advance
      some ((property.toList ++ properties, value.toList ++ values), cursor)
    else if cursor.peek.isPunct "\x7d" then
      some ((property.toList, value.toList), cursor)
    else
      none

/-- Reads one entry of an object: its key with the span of its value, and its value. -/
def objectEntry (cursor : Cursor) :
    Option ((Option (String × Option Span) × Option Expr) × Cursor) :=
  if cursor.peek.isPunct "..." then do
    let (value, cursor) ← next .assignment cursor.advance
    some ((none, some value), cursor)
  else do
    let (key, cursor) ← cursor.objectKey
    if cursor.peek.isPunct ":" then
      let (value, cursor) ← next .assignment cursor.advance
      some ((key.text.map fun text => (text, some value.span), some value), cursor)
    else if cursor.peek.isPunctIn ["(", "<"] then
      let cursor ← Extent.typeParameters cursor
      let (_, cursor) ← next .parameterList cursor
      let (_, cursor) ← cursor.resultType [",", "\x7d"]
      let (_, cursor) ← cursor.closedBody
      some ((none, none), cursor)
    else if key.isWord then
      some ((key.text.map fun text => (text, none), none), cursor)
    else
      none

/-- Reads the parameters of a function in parentheses. -/
def parameterList (cursor : Cursor) : Option (List ParameterSpans × Cursor) := do
  let (_, cursor) ← cursor.expectPunct "("
  let (parameters, cursor) ← next .parameterTail cursor
  let (_, cursor) ← cursor.expectPunct ")"
  some (parameters, cursor)

/-- Reads parameters up to the closing parenthesis. -/
def parameterTail (cursor : Cursor) : Option (List ParameterSpans × Cursor) :=
  if cursor.peek.isPunct ")" then
    some ([], cursor)
  else do
    let (first, cursor) ← next .parameter cursor
    if cursor.peek.isPunct "," then
      let (parameters, cursor) ← next .parameterTail cursor.advance
      some (first :: parameters, cursor)
    else if cursor.peek.isPunct ")" then
      some ([first], cursor)
    else
      none

/-- Reads one parameter. -/
def parameter (cursor : Cursor) : Option (ParameterSpans × Cursor) := do
  let (_, cursor) ← next .decorators cursor
  let cursor := cursor.move (dropModifiers cursor.rest)
  let start := cursor.peek.start
  let cursor := cursor.skipPunct "..."
  let (last, cursor) ← cursor.parameterName
  let optional := cursor.peek.isPunct "?"
  let cursor := cursor.skipPunct "?"
  let (type, cursor) ← cursor.parameterType
  if cursor.peek.isPunct "=" then
    let (value, cursor) ← next .assignment cursor.advance
    some (⟨⟨start, last.stop⟩, optional, type, some value.span⟩, cursor)
  else
    some (⟨⟨start, last.stop⟩, optional, type, none⟩, cursor)

/-- Passes over the decorators of a parameter. -/
def decorators (cursor : Cursor) : Option (Unit × Cursor) :=
  if cursor.peek.isPunct "@" then do
    let (_, cursor) ← next .callMember cursor.advance
    next .decorators cursor
  else
    some ((), cursor)

/-- Does a task, and goes on with the given readers. -/
def step : Readers
  | .assignment => assignment next
  | .arrow => arrow next
  | .conditional => conditional next
  | .binary least => binary next least
  | .binaryTail least left => binaryTail next least left
  | .unary => unary next
  | .callMember => callMember next
  | .memberPath target => memberPath next target
  | .memberTail expr => memberTail next expr
  | .optionalTail expr => optionalTail next expr
  | .arguments => arguments next
  | .argumentTail => argumentTail next
  | .element => element next
  | .primary => primary next
  | .functionExpression => functionExpression next
  | .arrayTail => arrayTail next
  | .objectTail => objectTail next
  | .objectEntry => objectEntry next
  | .parameterList => parameterList next
  | .parameterTail => parameterTail next
  | .parameter => parameter next
  | .decorators => decorators next

end Readers

/-- The readers of expressions that go on with each other to a depth. -/
def readers (depth : Nat) : Readers := descend step (fun _ _ => none) depth

end Expr

/-- Reads an expression. -/
def Cursor.expression (cursor : Cursor) : Option (Expr × Cursor) :=
  Expr.readers cursor.fuel .assignment cursor

/-- Reads the parameters of a function in parentheses. -/
def Cursor.parameters (cursor : Cursor) : Option (List ParameterSpans × Cursor) :=
  Expr.readers cursor.fuel .parameterList cursor

end SourceCanvas
