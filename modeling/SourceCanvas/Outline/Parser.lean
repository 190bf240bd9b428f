import SourceCanvas.Expr.Parser
import SourceCanvas.Node.Naming
import SourceCanvas.Outline.Basic
import SourceCanvas.Outline.Template

/-!
# Reading outlines

The statements of a text are read one after the other. A reader of a statement gives its constructs
with the cursor after it, or nothing where the statement has no construct; such a statement is
skipped as a whole (`skipStatement`). Inside the body of a function the readers work in the window
between its braces. `outline` reads a text, and `parse` lists the nodes of its outline.
-/

namespace SourceCanvas

/-- Words that start a statement. -/
def statementStarters : List String :=
  ["import", "export", "function", "const", "let", "var", "interface", "type", "class", "async",
    "enum", "declare", "abstract", "namespace", "module", "return", "if", "for", "while", "switch",
    "try", "do", "throw", "break", "continue"]

/-- Words that go on with a statement after a closing brace. -/
def blockWords : List String := ["else", "catch", "finally", "while", "as"]

/-- Punctuators that go on with a statement after a closing brace. -/
def blockContinuations : List String :=
  [".", "?.", "(", "[", ",", "=", "?", ":", ";", "+", "-", "*", "/", "%", "&&", "||", "??", "===",
    "!==", "==", "!=", "<", ">", "<=", ">=", "|", "&"]

/-- Words that declare variables. -/
def variableWords : List String := ["const", "let", "var"]

/-! ## Skipping -/

/-- Whether a statement that ends with a closing brace goes on with a token. -/
def continuesBlock (token : Token) : Bool :=
  token.isWordIn blockWords || token.isPunctIn blockContinuations

/-- The tokens after a statement, given how many brackets are open and whether some of it is read.
A statement ends after a semicolon, after a brace that closes a block, before a line that starts
another one, and before a bracket that closes what it stands in. -/
def skipStatement (depth : Nat) (first : Bool) : List Token → List Token
  | [] => []
  | token :: rest =>
    if !first && depth == 0 && token.newlineBefore && token.isWordIn statementStarters then
      token :: rest
    else if token.isOpener then
      skipStatement (depth + 1) false rest
    else if token.isCloser then
      if depth = 0 then
        token :: rest
      else if depth = 1 && token.value = "\x7d" && !rest.head?.any continuesBlock then
        rest
      else
        skipStatement (depth - 1) false rest
    else if token.isPunct ";" && depth = 0 then
      rest
    else
      skipStatement depth false rest

/-- The tokens after a member of an interface that has no name and type of its own. -/
def skipMember (depth : Nat) (first : Bool) : List Token → List Token
  | [] => []
  | token :: rest =>
    if depth == 0 && !first && (token.isPunctIn [";", ","] || token.newlineBefore) then
      token :: rest
    else if token.isOpener then
      skipMember (depth + 1) false rest
    else if token.isCloser then
      skipMember (depth - 1) false rest
    else
      skipMember depth false rest

/-- What a reader of a statement does. -/
abbrev StatementReader := Cursor → Option (List Construct × Cursor)

namespace StatementReader

/-- The cursor, moved by one token if it has not left a place. -/
def progress (start cursor : Cursor) : Cursor :=
  if cursor.size = start.size then cursor.advance else cursor

/-- Reads one statement, or skips it. -/
def orSkip (reader : StatementReader) (cursor : Cursor) : List Construct × Cursor :=
  match reader cursor with
  | some (constructs, after) => (constructs, progress cursor after)
  | none => ([], progress cursor (cursor.move (skipStatement 0 true cursor.rest)))

/-- Reads the statements of a window. Fuel bounds their count. -/
def all (reader : StatementReader) : Nat → Cursor → List Construct
  | 0, _ => []
  | fuel + 1, cursor =>
    if cursor.atEnd then
      []
    else
      let (constructs, cursor) := reader.orSkip cursor
      constructs ++ all reader fuel cursor

end StatementReader

/-- What a reader of outlines has to know: the text, and whether declarations with made-up names
become nodes of the kind that the name tells. -/
structure Reading where
  source : List Char
  reclassify : Bool

namespace Reading

/-- The text of a span. -/
def text (reading : Reading) (span : Span) : String := span.slice reading.source

/-! ## Imports and exports -/

/-- The words of a specifier, if there are any. -/
def specifier (words : List String) : List String :=
  if words.isEmpty then [] else [" ".intercalate words]

/-- Reads specifiers up to the closing brace, which is given as well. -/
def specifiers (words : List String) : List Token → Option (List String × Token × List Token)
  | [] => none
  | token :: rest =>
    if token.isPunct "\x7d" then
      some (specifier words, token, rest)
    else if token.isPunct "," then
      (specifiers [] rest).map fun (others, closer, rest) =>
        (specifier words ++ others, closer, rest)
    else
      specifiers (words ++ [token.value]) rest

/-- Reads specifiers in braces, and gives the closing brace as well. -/
def specifierList (cursor : Cursor) : Option (List String × Token × Cursor) := do
  let (_, cursor) ← cursor.expectPunct "\x7b"
  let (names, closer, rest) ← specifiers [] cursor.rest
  some (names, closer, cursor.move rest)

/-- Whether the word after an import says that only types are taken. -/
def atTypeOnly (cursor : Cursor) : Bool :=
  let next := cursor.peekAt 1
  cursor.peek.isWord "type" &&
    (next.isPunctIn ["\x7b", "*"] || (next.kind == .identifier && !next.isWord "from"))

/-- Reads what an import takes, before the word that names its source. -/
def importClause (attributes : ImportAttributes) (cursor : Cursor) :
    Option (ImportAttributes × Cursor) := do
  let (attributes, cursor) :=
    if cursor.peek.kind = .identifier then
      ({ attributes with defaultName := some cursor.peek.value }, cursor.advance.skipPunct ",")
    else
      (attributes, cursor)
  if cursor.peek.isPunct "*" then
    let (_, cursor) ← cursor.advance.expectWord "as"
    let (name, cursor) ← cursor.expectIdentifier
    some ({ attributes with wholeName := some name.value }, cursor)
  else if cursor.peek.isPunct "\x7b" then
    let (named, _, cursor) ← specifierList cursor
    some ({ attributes with named }, cursor)
  else
    some (attributes, cursor)

/-- Reads the source that something comes from, with the word before it. -/
def fromSource (cursor : Cursor) : Option (Token × Cursor) := do
  let (_, cursor) ← cursor.expectWord "from"
  cursor.expectString

/-- Reads what an import takes and where it comes from. -/
def importFrom (typeOnly : Bool) (cursor : Cursor) : Option (ImportAttributes × Token × Cursor) :=
  if cursor.peek.kind = .string then
    some ({ typeOnly }, cursor.peek, cursor.advance)
  else do
    let (attributes, cursor) ← importClause { typeOnly } cursor
    let (source, cursor) ← fromSource cursor
    some (attributes, source, cursor)

/-- Reads an import. -/
def importStatement : StatementReader := fun cursor => do
  let start := cursor.peek.start
  let cursor := cursor.advance
  let typeOnly := atTypeOnly cursor
  let cursor := if typeOnly then cursor.advance else cursor
  let (attributes, source, cursor) ← importFrom typeOnly cursor
  let cursor ← cursor.endStatement
  let attributes := { attributes with source := Text.unquote source.value }
  some ([.mk (.importDecl attributes) ⟨start, source.stop⟩ []], cursor)

/-- Reads the name under which everything is exported, if there is one. -/
def wholeName (cursor : Cursor) : Option (Option String × Cursor) :=
  if cursor.peek.isWord "as" then
    cursor.advance.expectIdentifier.map fun (name, cursor) => (some name.value, cursor)
  else
    some (none, cursor)

/-- Reads an export of everything, after its star. -/
def exportStar (start : Nat) : StatementReader := fun cursor => do
  let (wholeName, cursor) ← wholeName cursor
  let (source, cursor) ← fromSource cursor
  let cursor ← cursor.endStatement
  some ([.mk (.exportDecl
    { source := some (Text.unquote source.value), wholeName, isStar := true })
    ⟨start, source.stop⟩ []], cursor)

/-- Reads the source of exported names, if there is one, and gives the end of the export: that of
the source, or of the brace after the names. -/
def exportSource (closer : Token) (cursor : Cursor) : Option (Option String × Nat × Cursor) :=
  if cursor.peek.isWord "from" then
    (fromSource cursor).map fun (source, cursor) =>
      (some (Text.unquote source.value), source.stop, cursor)
  else
    some (none, closer.stop, cursor)

/-- Reads an export of names. -/
def exportNamed (start : Nat) : StatementReader := fun cursor => do
  let (named, closer, cursor) ← specifierList cursor
  let (source, stop, cursor) ← exportSource closer cursor
  let cursor ← cursor.endStatement
  some ([.mk (.exportDecl { source, named }) ⟨start, stop⟩ []], cursor)

/-- Reads an export of an expression, after the word that says so. -/
def exportDefault (reading : Reading) (start : Nat) : StatementReader := fun cursor => do
  let (expr, cursor) ← cursor.expression
  let cursor ← cursor.endStatement
  some ([.mk (.exportDecl { defaultValue := some (reading.text expr.span) })
    ⟨start, expr.stop⟩ []], cursor)

/-! ## Interfaces -/

/-- Reads one of the types that an interface extends, and goes on after a comma. -/
def baseTypeStep (reading : Reading)
    (next : Answers fun _ : Unit => Option (List String × Cursor)) :
    Answers fun _ : Unit => Option (List String × Cursor) := fun _ cursor => do
  let (span, cursor) ← Extent.type? cursor ⟨[",", "\x7b"], true⟩
  if cursor.peek.isPunct "," then
    let (others, cursor) ← next () cursor.advance
    some (reading.text span :: others, cursor)
  else
    some ([reading.text span], cursor)

/-- Reads the types that an interface extends. The depth bounds their count. -/
def baseTypes (reading : Reading) (depth : Nat) (cursor : Cursor) : Option (List String × Cursor) :=
  descend (baseTypeStep reading) (fun _ _ => none) depth () cursor

/-- Reads a member with a name and a type. -/
def typedMember (reading : Reading) (cursor : Cursor) : Option (Member × Cursor) :=
  let next := cursor.peekAt 1
  let cursor :=
    if cursor.peek.isWord "readonly" && (next.kind = .identifier || next.kind = .string) then
      cursor.advance
    else
      cursor
  let name := cursor.peek
  if name.kind = .identifier || name.kind = .string || name.kind = .number then
    let cursor := cursor.advance
    let optional := cursor.peek.isPunct "?"
    let cursor := cursor.skipPunct "?"
    if cursor.peek.isPunct ":" then do
      let (span, cursor) ← Extent.type? cursor.advance ⟨[";", ","], false⟩
      some ({ name := name.value, type := reading.text span, optional }, cursor)
    else
      none
  else
    none

/-- Reads or skips one member of an interface, and goes on behind it. -/
def memberStep (reading : Reading) (next : Answers fun _ : Unit => List Member) :
    Answers fun _ : Unit => List Member := fun _ cursor =>
  if cursor.atEnd then
    []
  else if cursor.peek.isPunctIn [";", ","] then
    next () cursor.advance
  else
    match typedMember reading cursor with
    | some (member, cursor) => member :: next () cursor
    | none => next () (cursor.move (skipMember 0 true cursor.rest))

/-- Reads the members in the window of an interface. The depth bounds their count. -/
def members (reading : Reading) (depth : Nat) (cursor : Cursor) : List Member :=
  descend (memberStep reading) (fun _ _ => []) depth () cursor

/-- Reads what an interface extends, if the word for it comes next. -/
def extended (reading : Reading) (cursor : Cursor) : Option (List String × Cursor) :=
  if cursor.peek.isWord "extends" then
    baseTypes reading (cursor.size + 1) cursor.advance
  else
    some ([], cursor)

/-- Reads an interface from the word that declares it on. -/
def interfaceStatement (reading : Reading) (start : Nat) : StatementReader := fun cursor => do
  let (name, cursor) ← cursor.advance.expectIdentifier
  let cursor ← Extent.typeParameters cursor
  let (bases, cursor) ← reading.extended cursor
  let (_, inside) ← cursor.expectPunct "\x7b"
  let (inner, closer, after) ← Extent.enclosed? 1 inside.rest
  let members := members reading (inner.length + 1) ⟨inner, closer⟩
  some ([.mk (.interfaceDecl { name := name.value, members, bases }) ⟨start, closer.stop⟩ []],
    cursor.move after)

/-! ## Variables -/

/-- The construct that a declaration with a made-up name stands for, if its initializer has the form
of the kind that the name tells. -/
def reclassified? (reading : Reading) (name : String) (initializer : Expr) (span : Span) :
    Option Construct := do
  if !reading.reclassify then
    none
  let kind ← Naming.generatedKind? name
  if kind = .console then
    let text := (reading.text initializer.span).toList
    let (label, value) ← Template.console? text
    some (.mk (.console { value := some value, label, name := some name }) span [])
  else
    let expr := initializer.unwrap
    let attributes ← expr.attributes? reading.source
    if attributes.kind = kind then
      some (.mk (attributes.withName name) span (Expr.listConstructs reading.source expr.parts))
    else
      none

/-- The construct of one declaration. -/
def declaration (reading : Reading) (keyword name : String) (type : Option Span)
    (initializer : Option Expr) (span : Span) : Construct :=
  match initializer.bind fun expr => reclassified? reading name expr span with
  | some construct => construct
  | none =>
    .mk
      (.variableDecl
        { name, declaredType := type.map reading.text,
          initializer := initializer.map fun expr => reading.text expr.span, keyword })
      span ((initializer.map (Expr.constructs reading.source)).getD [])

/-- Reads the type of a declared name, with the mark before it, and gives the end of the name with
both. -/
def declaredType (name : Token) (cursor : Cursor) : Option (Option Span × Nat × Cursor) :=
  let stop := if cursor.peek.isPunct "!" then cursor.peek.stop else name.stop
  let cursor := cursor.skipPunct "!"
  if cursor.peek.isPunct ":" then
    (Extent.type? cursor.advance ⟨["=", ";", ","], false⟩).map fun (span, cursor) =>
      (some span, span.stop, cursor)
  else
    some (none, stop, cursor)

/-- Reads the value given to a declared name, if there is one. -/
def initializer (cursor : Cursor) : Option (Option Expr × Cursor) :=
  if cursor.peek.isPunct "=" then
    cursor.advance.expression.map fun (expr, cursor) => (some expr, cursor)
  else
    some (none, cursor)

/-- Reads one declaration, with the start of the statement if it is the first one, and goes on after
a comma. -/
def declarationStep (reading : Reading) (keyword : String)
    (next : Answers fun _ : Option Nat => Option (List Construct × Cursor)) :
    Answers fun _ : Option Nat => Option (List Construct × Cursor) := fun start cursor => do
  let (name, cursor) ← cursor.expectIdentifier
  let (type, stop, cursor) ← declaredType name cursor
  let (initializer, cursor) ← initializer cursor
  let span : Span := ⟨start.getD name.start, (initializer.map Expr.stop).getD stop⟩
  let construct := declaration reading keyword name.value type initializer span
  if cursor.peek.isPunct "," then
    let (others, cursor) ← next none cursor.advance
    some (construct :: others, cursor)
  else
    some ([construct], cursor)

/-- Reads declarations with commas between them. The depth bounds their count. -/
def declarations (reading : Reading) (keyword : String) (depth : Nat) (start : Option Nat)
    (cursor : Cursor) : Option (List Construct × Cursor) :=
  descend (declarationStep reading keyword) (fun _ _ => none) depth start cursor

/-- Reads a declaration of variables from the word that declares them on. -/
def variableStatement (reading : Reading) (start : Nat) : StatementReader := fun cursor => do
  let keyword := cursor.peek.value
  let cursor := cursor.advance
  let (constructs, cursor) ← declarations reading keyword (cursor.size + 1) (some start) cursor
  let cursor ← cursor.endStatement
  some (constructs, cursor)

/-! ## Functions -/

/-- Whether a function comes next. -/
def atFunction (cursor : Cursor) : Bool :=
  let next := cursor.peekAt 1
  cursor.peek.isWord "function" ||
    (cursor.peek.isWord "async" && next.isWord "function" && !next.newlineBefore)

/-- Reads a value that a function returns, after the word that says so. -/
def returnStatement (reading : Reading) : StatementReader := fun cursor => do
  let next := cursor.peek
  if next.isPunctIn [";", "\x7d"] || next.newlineBefore || cursor.atEnd then
    let cursor ← cursor.endStatement
    some ([], cursor)
  else
    let (expr, cursor) ← cursor.expression
    let cursor ← cursor.endStatement
    some (expr.constructs reading.source, cursor)

/-- Reads a statement in the body of a function. -/
def bodyStatement (reading : Reading) : StatementReader := fun cursor =>
  let token := cursor.peek
  if token.isPunct ";" then
    some ([], cursor.advance)
  else if token.isWord "return" then
    returnStatement reading cursor.advance
  else if token.isWordIn variableWords && (cursor.peekAt 1).kind = .identifier then
    variableStatement reading token.start cursor
  else if token.isWordIn statementStarters || token.isPunct "\x7b" then
    none
  else do
    let (expr, cursor) ← cursor.expression
    let cursor ← cursor.endStatement
    some (expr.constructs reading.source, cursor)

/-- What is written about a parameter. -/
def parameter (reading : Reading) (spans : ParameterSpans) : Parameter :=
  { name := reading.text spans.name
    type := spans.type.map reading.text
    optional := spans.optional
    defaultValue := spans.value.map reading.text }

/-- The request that a function makes, if its body is that of one. -/
def request? (reading : Reading) (name : String) (isAsync : Bool) (parameters : List Parameter)
    (body : Option String) : Option ApiAttributes :=
  if reading.reclassify && isAsync && parameters.isEmpty then
    body.bind fun body => Template.request? name body.toList
  else
    none

/-- Reads a function from its first word on. -/
def functionStatement (reading : Reading) (start : Nat) : StatementReader := fun cursor => do
  let isAsync := cursor.peek.isWord "async"
  let cursor := (if isAsync then cursor.advance else cursor).advance
  let (name, cursor) ← cursor.expectIdentifier
  let name := name.value
  let cursor ← Extent.typeParameters cursor
  let (parameters, cursor) ← cursor.parameters
  let parameters := parameters.map reading.parameter
  let (returnType, cursor) ← cursor.resultType [";"]
  let (opener, inside) ← cursor.expectPunct "\x7b"
  let (inner, closer, after) ← Extent.enclosed? 1 inside.rest
  let body := (Text.dedent? (reading.text ⟨opener.stop, closer.start⟩).toList).map String.ofList
  let span : Span := ⟨start, closer.stop⟩
  let construct :=
    match reading.request? name isAsync parameters body with
    | some request => .mk (.api request) span []
    | none =>
      .mk
        (.functionDecl
          { name, parameters, returnType := returnType.map reading.text, isAsync, body })
        span
        (StatementReader.all reading.bodyStatement inner.length ⟨inner, closer⟩)
  some ([construct], cursor.move after)

/-! ## Texts -/

/-- Reads an export from the word that says so on. -/
def exportStatement (reading : Reading) : StatementReader := fun cursor =>
  let start := cursor.peek.start
  let cursor := cursor.advance
  let token := cursor.peek
  if token.isWord "default" then
    let cursor := cursor.advance
    if atFunction cursor then reading.functionStatement start cursor
    else if cursor.peek.isWordIn ["class", "interface", "abstract"] then none
    else reading.exportDefault start cursor
  else if token.isPunct "*" then exportStar start cursor.advance
  else if token.isPunct "\x7b" then exportNamed start cursor
  else if atFunction cursor then reading.functionStatement start cursor
  else if token.isWord "interface" then reading.interfaceStatement start cursor
  else if token.isWordIn variableWords && !(cursor.peekAt 1).isWord "enum" then
    reading.variableStatement start cursor
  else none

/-- Reads a statement of a text. -/
def topStatement (reading : Reading) : StatementReader := fun cursor =>
  let token := cursor.peek
  let next := cursor.peekAt 1
  if token.isPunct ";" then some ([], cursor.advance)
  else if token.isWord "import" && !next.isPunctIn ["(", "."] then importStatement cursor
  else if token.isWord "export" then reading.exportStatement cursor
  else if atFunction cursor then reading.functionStatement token.start cursor
  else if token.isWord "interface" && next.kind = .identifier then
    reading.interfaceStatement token.start cursor
  else if token.isWordIn variableWords && !next.isWord "enum" then
    reading.variableStatement token.start cursor
  else none

/-- The outline of a text with the given tokens, the last of which stands at its end. -/
def outline (reading : Reading) (tokens : List Token) : List Construct :=
  StatementReader.all reading.topStatement tokens.length ⟨tokens.dropLast, tokens.getLastD default⟩

end Reading

/-- The outline of a source text. -/
def outline (reclassify : Bool) (text : String) : Except LexicalError (List Construct) := do
  let tokens ← tokenize text
  return Reading.outline ⟨text.toList, reclassify⟩ tokens

/-- The nodes of a source text: each construct before those inside it. -/
def parse (reclassify : Bool) (text : String) : Except LexicalError (List Node) := do
  return Construct.listNodes none (← outline reclassify text)

end SourceCanvas
