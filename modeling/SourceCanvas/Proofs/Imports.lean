import SourceCanvas.Proofs.QuotedTexts
import SourceCanvas.Proofs.Statements

/-!
# Written imports and exports

The texts of imports and exports of plain names are statements (`ImportForm.statement`,
`ExportForm.statement`). What the text has no place for is not found again: names next to one name
for everything, and whether only types are asked for where nothing is taken. Sources are found with
escapes as written, and quoting them again changes nothing (`quote_unquote_quoted`).
-/

namespace SourceCanvas

open Stroke (Legible Phrase Paired inBraces listed word sign space)

/-! ## Names in braces -/

/-- The strokes of a name. -/
def PlainName.strokes (name : PlainName) : List Stroke := [word name.text]

/-- Names in braces. -/
def namesInBraces (names : List PlainName) : List Stroke := inBraces (names.map PlainName.strokes)

section Names

variable {offset : Nat} {fence : Token} {rest : List Token}

theorem written_namesInBraces (names : List PlainName) :
    Stroke.written (namesInBraces names) = (braced (names.map PlainName.text)).toList :=
  Stroke.written_inBraces (fun name => by simp [PlainName.strokes]) names

theorem phrase_namesInBraces (names : List PlainName) : Phrase (namesInBraces names) :=
  Stroke.phrase_inBraces PlainName.phrase names

theorem unclosed_namesInBraces {newline : Bool} (names : List PlainName) (later : Unclosed rest) :
    Unclosed (Stroke.tokens newline offset (namesInBraces names) ++ rest) := by
  have item {newline : Bool} {offset : Nat} {rest : List Token} (name : PlainName)
      (later : Unclosed rest) : Unclosed (Stroke.tokens newline offset name.strokes ++ rest) :=
    .word later
  cases names with
  | nil => exact .cons (.inr rfl) (.cons (.inr rfl) later)
  | cons first others =>
    have unfolded : namesInBraces (first :: others) = sign "\x7b" :: space ::
        (listed ((first :: others).map PlainName.strokes) ++ [space, sign "\x7d"]) := rfl
    rw [unfolded, Stroke.tokens, Stroke.tokens_space, Stroke.tokens_append, List.cons_append,
      List.append_assoc]
    exact .cons (.inr rfl) (.listed item (first :: others) (.cons (.inr rfl) later))

/-- Names with commas between them are read up to the closing brace. -/
theorem specifiers_listed (first : PlainName) (others : List PlainName) {closer : Token}
    (closes : closer.isPunct "\x7d" = true) :
    Reading.specifiers [] (Stroke.tokens false offset
        (listed ((first :: others).map PlainName.strokes)) ++ closer :: rest) =
      some ((first :: others).map PlainName.text, closer, rest) := by
  have name (name : PlainName) (span : Span) (behind : List Token) :
      Reading.specifiers [] (⟨.identifier, name.text, span, false⟩ :: behind) =
        Reading.specifiers [name.text] behind := by
    simp [Reading.specifiers, Token.isPunct]
  have alone (text : String) : Reading.specifier [text] = [text] := by
    simp [Reading.specifier]
  induction others generalizing first offset with
  | nil =>
    refine (name first _ _).trans ?_
    simp [Stroke.tokens, Reading.specifiers, closes, alone]
  | cons next others ih =>
    have comma (span : Span) (behind : List Token) :
        Reading.specifiers [first.text] (⟨.punctuator, ",", span, false⟩ :: behind) =
          (Reading.specifiers [] behind).map fun found => (first.text :: found.1, found.2) := by
      simp [Reading.specifiers, Token.isPunct, alone]
    refine (name first _ _).trans ((comma _ _).trans ?_)
    exact congrArg (Option.map _) (ih next)

theorem specifierList_of_specifiers {opener closer : Token} {tokens : List Token}
    {names : List String} (opens : opener.isPunct "\x7b" = true)
    (found : Reading.specifiers [] tokens = some (names, closer, rest)) :
    Reading.specifierList ⟨opener :: tokens, fence⟩ = some (names, closer, ⟨rest, fence⟩) := by
  have braced : (⟨opener :: tokens, fence⟩ : Cursor).expectPunct "\x7b" =
      some (opener, ⟨tokens, fence⟩) := if_pos opens
  simp [Reading.specifierList, braced, found, Cursor.move]

/-- **Names in braces are read.** -/
theorem exists_specifierList (names : List PlainName) (rest : List Token) (offset : Nat)
    (fence : Token) : ∃ closer,
      closer.stop = offset + (braced (names.map PlainName.text)).toList.length ∧
      Reading.specifierList
          ⟨Stroke.tokens false offset (namesInBraces names) ++ rest, fence⟩ =
        some (names.map PlainName.text, closer, ⟨rest, fence⟩) := by
  have length := congrArg List.length (written_namesInBraces names)
  cases names with
  | nil => exact ⟨⟨.punctuator, "\x7d", ⟨offset + 1, offset + 2⟩, false⟩, rfl, rfl⟩
  | cons first others =>
    obtain ⟨past, place⟩ : ∃ past, past = offset + 2 +
      (Stroke.written (listed ((first :: others).map PlainName.strokes))).length + 1 := ⟨_, rfl⟩
    let closer : Token := ⟨.punctuator, "\x7d", ⟨past, past + 1⟩, false⟩
    have unfolded : namesInBraces (first :: others) = sign "\x7b" :: space ::
        (listed ((first :: others).map PlainName.strokes) ++ [space, sign "\x7d"]) := rfl
    refine ⟨closer, ?_, ?_⟩
    · rw [← length, unfolded]
      simp [Stroke.written_append, closer, Token.stop, place]
      omega
    · have inside : Reading.specifiers [] (Stroke.tokens false (offset + 2)
          (listed ((first :: others).map PlainName.strokes)) ++ closer :: rest) =
          some ((first :: others).map PlainName.text, closer, rest) :=
        specifiers_listed first others rfl
      have unbroken := (Phrase.listed PlainName.phrase first others).unbroken false
      have parts : Stroke.tokens false offset (namesInBraces (first :: others)) ++ rest =
          ⟨.punctuator, "\x7b", ⟨offset, offset + 1⟩, false⟩ :: (Stroke.tokens false (offset + 2)
            (listed ((first :: others).map PlainName.strokes)) ++ closer :: rest) := by
        have unbroken' : Stroke.breaks false
          (listed ((first :: others).map PlainName.strokes)) = false := unbroken
        rw [unfolded, Stroke.tokens, Stroke.tokens_space, Stroke.tokens_append, List.cons_append,
          List.append_assoc, unbroken']
        subst place
        rfl
      rw [parts]
      exact specifierList_of_specifiers rfl inside

end Names

/-! ## Sources -/

open Term (quoted)

/-- The strokes of a source, with the end of the statement. -/
def sourceEnd (source : String) : List Stroke := [.lexeme .string (quoted source), sign ";"]

/-- The strokes of a source with the word before it. -/
def fromStrokes (source : String) : List Stroke :=
  space :: word "from" :: space :: sourceEnd source

/-- Quoting what is found of a source gives it again. -/
theorem quote_unquote_quoted (contents : String) :
    Text.quote (Text.unquote (quoted contents)) = quoted contents := by
  have spelled : (quoted contents).toList = '"' :: (Text.escape contents.toList ++ ['"']) := by
    rw [quoted, Text.quote, String.toList_ofList, Text.quoteChars, List.cons_append]
  rw [Text.quote, Text.unquote, String.toList_ofList, spelled,
    Lexer.quoteChars_of_fills (Lexer.fills_escape _), ← spelled, String.ofList_toList]

theorem escape_ne_nil {contents : List Char} (filled : contents ≠ []) :
    Text.escape contents ≠ [] := by
  fun_cases Text.escape contents <;> simp_all

/-- Something is found of a source that is not empty. -/
theorem unquote_quoted_ne {contents : String} (filled : contents ≠ "") :
    Text.unquote (quoted contents) ≠ "" := by
  rw [Text.unquote, quoted, Text.quote, String.toList_ofList, Text.unquoteChars_quoteChars]
  intro none
  have empty := congrArg String.toList none
  rw [String.toList_ofList] at empty
  exact escape_ne_nil (by simpa using filled) empty

section Sources

variable {after : List Char} {before newline : Bool} {offset : Nat} {fence : Token}
  {rest : List Token}

theorem legible_sourceEnd (source : String) : Legible after before (sourceEnd source) :=
  have ends : Legible after false [sign ";"] := .single (by decide) trivial
  Stroke.legible_append.mpr ⟨(Term.string source).phrase.legible
    (Lexer.chunk_cons_of_ends (by decide) _), ends⟩

theorem solid_sourceEnd (source : String) :
    (Stroke.written (sourceEnd source) ++ after).head?.any Lexer.isSpace = false := by
  have head := (Term.string source).phrase.head (';' :: after)
  rw [Term.strokes, Stroke.written_lexeme, List.append_assoc] at head
  rw [sourceEnd, Stroke.written_lexeme, List.append_assoc]
  exact head

theorem legible_fromStrokes (source : String) : Legible after before (fromStrokes source) :=
  .space rfl (.word rfl rfl (.space (solid_sourceEnd source) (legible_sourceEnd source)))

theorem unclosed_fromStrokes (source : String) (later : Unclosed rest) :
    Unclosed (Stroke.tokens newline offset (fromStrokes source) ++ rest) :=
  .word (.cons (.inl (List.mem_cons_of_mem _ (List.mem_cons_self ..))) (.cons (.inr rfl) later))

/-- A source is read with the word before it, up to the end of the statement. -/
theorem exists_fromSource (source : String) (offset : Nat) (fence : Token) (rest : List Token) :
    ∃ token semicolon, token.value = quoted source ∧
      token.stop = offset + 6 + (quoted source).toList.length ∧
      semicolon.isPunct ";" = true ∧
      Reading.fromSource ⟨Stroke.tokens false offset (fromStrokes source) ++ rest, fence⟩ =
        some (token, ⟨semicolon :: rest, fence⟩) := by
  obtain ⟨past, place⟩ : ∃ past, past = offset + 6 + (quoted source).toList.length := ⟨_, rfl⟩
  refine ⟨⟨.string, quoted source, ⟨offset + 6, past⟩, false⟩,
    ⟨.punctuator, ";", ⟨past, past + 1⟩, false⟩, rfl, place, rfl, ?_⟩
  rw [place]
  rfl

end Sources

/-! ## Imports -/

/-- What is taken besides a default. -/
inductive Taken where
  | whole (name : PlainName)
  | named (first : PlainName) (others : List PlainName)

/-- What an import takes: a default, something else, or both. -/
inductive Clause where
  | single (name : PlainName)
  | besides (taken : Taken)
  | both (name : PlainName) (taken : Taken)

namespace Taken

/-- The strokes of what is taken. -/
def strokes : Taken → List Stroke
  | .whole name => [sign "*", space, word "as", space, word name.text]
  | .named first others => namesInBraces (first :: others)

/-- Attributes with what is taken. -/
def into (attributes : ImportAttributes) : Taken → ImportAttributes
  | .whole name => { attributes with wholeName := some name.text }
  | .named first others => { attributes with named := (first :: others).map PlainName.text }

/-- The text of what is taken. -/
def text : Taken → String
  | .whole name => "* as " ++ name.text
  | .named first others => braced ((first :: others).map PlainName.text)

variable {newline : Bool} {offset : Nat} {rest : List Token} {fence token : Token}

theorem written_strokes (taken : Taken) : Stroke.written taken.strokes = taken.text.toList := by
  cases taken with
  | whole name => simp [strokes, text]
  | named first others => exact written_namesInBraces (first :: others)

theorem phrase (taken : Taken) : Phrase taken.strokes := by
  cases taken with
  | whole name =>
    exact ⟨fun ends => .sign (by decide) (.inl (Lexer.chunk_cons_of_ends (by decide) _))
      (.space rfl (.word rfl rfl (.space (name.phrase.head _) (name.phrase.legible ends)))),
      ⟨'*', _, rfl, rfl⟩, .plain rfl (.plain rfl (.plain rfl (.plain rfl (.plain rfl .nil)))),
      fun _ => rfl⟩
  | named first others => exact phrase_namesInBraces (first :: others)

theorem unclosed (taken : Taken) (later : Unclosed rest) :
    Unclosed (Stroke.tokens newline offset taken.strokes ++ rest) := by
  cases taken with
  | whole name => exact .wall rfl rfl
  | named first others => exact unclosed_namesInBraces (first :: others) later

/-- What is taken besides a default is read up to the word behind it. -/
theorem importClause_strokes (taken : Taken) (attributes : ImportAttributes)
    (offset : Nat) (rest : List Token) (fence : Token) :
    Reading.importClause attributes ⟨Stroke.tokens false offset taken.strokes ++ rest, fence⟩ =
      some (taken.into attributes, ⟨rest, fence⟩) := by
  cases taken with
  | whole name => rfl
  | named first others =>
    obtain ⟨closer, -, found⟩ := exists_specifierList (first :: others) rest offset fence
    have brace : (⟨Stroke.tokens false offset (namesInBraces (first :: others)) ++ rest,
        fence⟩ : Cursor).peek = ⟨.punctuator, "\x7b", ⟨offset, offset + 1⟩, false⟩ := rfl
    simp [Reading.importClause, strokes, brace, Token.isPunct, found, into]

end Taken

namespace Clause

/-- The strokes of what an import takes. -/
def strokes : Clause → List Stroke
  | .single name => [word name.text]
  | .besides taken => taken.strokes
  | .both name taken => word name.text :: sign "," :: space :: taken.strokes

/-- Attributes with what is taken. -/
def into (attributes : ImportAttributes) : Clause → ImportAttributes
  | .single name => { attributes with defaultName := some name.text }
  | .besides taken => taken.into attributes
  | .both name taken => taken.into { attributes with defaultName := some name.text }

/-- The text of what an import takes. -/
def text : Clause → String
  | .single name => name.text
  | .besides taken => taken.text
  | .both name taken => name.text ++ ", " ++ taken.text

variable {newline : Bool} {offset : Nat} {rest : List Token} {fence token : Token}

theorem written_strokes (clause : Clause) : Stroke.written clause.strokes = clause.text.toList := by
  cases clause with
  | single name => simp [strokes, text]
  | besides taken => exact taken.written_strokes
  | both name taken => simp [strokes, text, taken.written_strokes]

theorem phrase (clause : Clause) : Phrase clause.strokes := by
  cases clause with
  | single name => exact name.phrase
  | besides taken => exact taken.phrase
  | both name taken =>
    exact ⟨fun ends => .word name.isWhole rfl (.single (by decide)
        (.space (taken.phrase.head _) (taken.phrase.legible ends))),
      name.phrase.solid_append (sign "," :: space :: taken.strokes),
      .plain rfl (.plain rfl (.plain rfl taken.phrase.paired)),
      fun _ => taken.phrase.unbroken false⟩

theorem unclosed (clause : Clause) (later : Unclosed rest) :
    Unclosed (Stroke.tokens newline offset clause.strokes ++ rest) := by
  cases clause with
  | single name => exact .word later
  | besides taken => exact taken.unclosed later
  | both name taken => exact .word (.cons (.inr rfl) (taken.unclosed later))

/-- What an import takes starts with a name or a mark, and not with the word for types. -/
theorem exists_first (clause : Clause) (offset : Nat) : ∃ first others,
    Stroke.tokens false offset clause.strokes = first :: others ∧ first.kind ≠ .string ∧
      first.isWord "type" = false ∧ first.isPunctIn ["(", "."] = false ∧
      (first.isPunctIn ["\x7b", "*"] || (first.kind == .identifier && !first.isWord "from")) =
        true := by
  have name (name : PlainName) (span : Span) :
      Token.isWord ⟨.identifier, name.text, span, false⟩ "type" = false ∧
      Token.isWord ⟨.identifier, name.text, span, false⟩ "from" = false :=
    ⟨name.isWord _ _ _ (by decide), name.isWord _ _ _ (by decide)⟩
  cases clause with
  | single word => exact ⟨_, _, rfl, nofun, (name _ _).1, rfl, by rw [(name _ _).2]; rfl⟩
  | both word taken => exact ⟨_, _, rfl, nofun, (name _ _).1, rfl, by rw [(name _ _).2]; rfl⟩
  | besides taken =>
    cases taken with
    | whole word => exact ⟨_, _, rfl, nofun, rfl, rfl, rfl⟩
    | named first others => exact ⟨_, _, rfl, nofun, rfl, rfl, rfl⟩

/-- A default is read before what else is taken. -/
theorem importClause_default (attributes : ImportAttributes) {name comma : Token}
    (kind : name.kind = .identifier) (separates : comma.isPunct "," = true)
    (other : (⟨rest, fence⟩ : Cursor).peek.kind ≠ .identifier) :
    Reading.importClause attributes ⟨name :: comma :: rest, fence⟩ =
      Reading.importClause { attributes with defaultName := some name.value } ⟨rest, fence⟩ := by
  have peeked : (⟨name :: comma :: rest, fence⟩ : Cursor).peek = name := rfl
  have passed : (⟨name :: comma :: rest, fence⟩ : Cursor).advance.skipPunct "," = ⟨rest, fence⟩ :=
    if_pos separates
  simp [Reading.importClause, peeked, kind, passed, other]

/-- **What an import takes is read** up to the word behind it. -/
theorem importClause_strokes (clause : Clause) (attributes : ImportAttributes)
    (offset : Nat) {behind : Token} (word : behind.kind = .identifier) (rest : List Token)
    (fence : Token) :
    Reading.importClause attributes
        ⟨Stroke.tokens false offset clause.strokes ++ behind :: rest, fence⟩ =
      some (clause.into attributes, ⟨behind :: rest, fence⟩) := by
  cases clause with
  | single name =>
    have other (mark : String) : behind.isPunct mark = false := by simp [Token.isPunct, word]
    simp [Reading.importClause, strokes, Stroke.tokens, Cursor.peek, Cursor.advance,
      Cursor.skipPunct, other, into]
  | besides taken => exact taken.importClause_strokes attributes offset (behind :: rest) fence
  | both name taken =>
    have found := taken.importClause_strokes { attributes with defaultName := some name.text }
      (offset + name.text.toList.length + 2) (behind :: rest) fence
    have other : (⟨Stroke.tokens false (offset + name.text.toList.length + 2) taken.strokes ++
        behind :: rest, fence⟩ : Cursor).peek.kind ≠ .identifier := by
      intro same
      cases taken <;> cases same
    exact (importClause_default attributes rfl rfl other).trans found

end Clause

/-- An import of names. -/
structure ImportForm where
  source : String
  named : List PlainName
  defaultName : Option PlainName
  wholeName : Option PlainName
  typeOnly : Bool

namespace ImportForm

/-- What is known about an import. -/
def attributes (form : ImportForm) : ImportAttributes :=
  { source := form.source, named := form.named.map PlainName.text,
    defaultName := form.defaultName.map PlainName.text,
    wholeName := form.wholeName.map PlainName.text, typeOnly := form.typeOnly }

/-- What is taken besides a default: a name for everything comes before names. -/
def taken? (form : ImportForm) : Option Taken :=
  match form.wholeName, form.named with
  | some name, _ => some (.whole name)
  | none, first :: others => some (.named first others)
  | none, [] => none

/-- What an import takes, if it takes anything. -/
def clause? (form : ImportForm) : Option Clause :=
  match form.defaultName, form.taken? with
  | some name, some taken => some (.both name taken)
  | some name, none => some (.single name)
  | none, some taken => some (.besides taken)
  | none, none => none

/-- The strokes of an import behind its word. -/
def inside (form : ImportForm) : List Stroke :=
  match form.clause?, form.typeOnly with
  | none, _ => sourceEnd form.source
  | some clause, false => clause.strokes ++ fromStrokes form.source
  | some clause, true => word "type" :: space :: (clause.strokes ++ fromStrokes form.source)

/-- The strokes of an import. -/
def strokes (form : ImportForm) : List Stroke := word "import" :: space :: form.inside

/-- What is found out about an import. -/
def found (form : ImportForm) : ImportAttributes :=
  match form.clause? with
  | none => { source := Text.unquote (quoted form.source) }
  | some clause =>
    { clause.into { typeOnly := form.typeOnly } with source := Text.unquote (quoted form.source) }

variable {newline : Bool} {offset : Nat} {rest : List Token} {fence token : Token}

theorem given?_text (name : Option PlainName) :
    Text.given? (name.map PlainName.text) = name.map PlainName.text := by
  cases name with
  | none => rfl
  | some name => exact Text.given?_some name.text_ne

theorem written_strokes (form : ImportForm) :
    Stroke.written form.strokes = form.attributes.block.toList := by
  obtain ⟨source, named, defaultName, wholeName, typeOnly⟩ := form
  simp only [ImportAttributes.block, attributes, given?_text]
  cases defaultName <;> cases wholeName <;> cases named <;> cases typeOnly <;>
    simp [strokes, inside, clause?, taken?, sourceEnd, fromStrokes, quoted, Stroke.written_append,
      Clause.written_strokes, Clause.text, Taken.text]

/-- What is found out is written in the same way. -/
theorem block_found (form : ImportForm) : form.found.block = form.attributes.block := by
  obtain ⟨source, named, defaultName, wholeName, typeOnly⟩ := form
  have given (name : PlainName) : Text.given? (some name.text) = some name.text :=
    given?_text (some name)
  have none' : Text.given? none = none := rfl
  have quote : Text.quote source = quoted source := rfl
  cases defaultName <;> cases wholeName <;> cases named <;>
    simp only [found, clause?, taken?, Clause.into, Taken.into, ImportAttributes.block, attributes,
      given, none', quote_unquote_quoted, quote, Option.map_none, Option.map_some, List.map_nil,
      List.map_cons] <;> rfl

theorem phrase_inside (form : ImportForm) : Phrase form.inside := by
  have whole (clause : Clause) : Phrase (clause.strokes ++ fromStrokes form.source) := by
    refine ⟨fun ends => Stroke.legible_append.mpr
        ⟨clause.phrase.legible (Lexer.chunk_cons_of_ends (by decide) _), legible_fromStrokes _⟩,
      clause.phrase.solid_append _, clause.phrase.paired.append
        (.plain rfl (.plain rfl (.plain rfl (.plain rfl (.plain rfl .nil))))), fun newline => ?_⟩
    rw [Stroke.breaks_append]
    rfl
  rw [inside]
  cases form.clause? with
  | none =>
    exact ⟨fun _ => legible_sourceEnd _, (Term.string form.source).phrase.solid_append [sign ";"],
      .plain rfl (.plain rfl .nil), fun _ => rfl⟩
  | some clause =>
    cases form.typeOnly with
    | false => exact whole clause
    | true =>
      have phrase := whole clause
      exact ⟨fun ends => .word rfl rfl (.space (phrase.head _) (phrase.legible ends)),
        ⟨'t', _, rfl, rfl⟩, .plain rfl (.plain rfl phrase.paired), fun _ => phrase.unbroken false⟩

theorem phrase (form : ImportForm) : Phrase form.strokes := by
  have inside := form.phrase_inside
  exact ⟨fun ends => .word rfl rfl (.space (inside.head _) (inside.legible ends)),
    ⟨'i', _, rfl, rfl⟩, .plain rfl (.plain rfl inside.paired), fun _ => inside.unbroken false⟩

theorem unclosed (form : ImportForm) (later : Unclosed rest) :
    Unclosed (Stroke.tokens newline offset form.strokes ++ rest) := by
  have whole (clause : Clause) {newline : Bool} {offset : Nat} : Unclosed
      (Stroke.tokens newline offset (clause.strokes ++ fromStrokes form.source) ++ rest) := by
    rw [Stroke.tokens_append, List.append_assoc]
    exact clause.unclosed (unclosed_fromStrokes _ later)
  refine .word ?_
  rw [inside]
  cases form.clause? with
  | none =>
    exact .cons (.inl (List.mem_cons_of_mem _ (List.mem_cons_self ..))) (.cons (.inr rfl) later)
  | some clause =>
    cases form.typeOnly with
    | false => exact whole clause
    | true => exact .word (whole clause)

/-- What an import takes is read with its source. -/
theorem importFrom_clause (typeOnly : Bool) (clause : Clause) (source : String) (offset : Nat)
    (rest : List Token) (fence : Token) : ∃ token semicolon, token.value = quoted source ∧
      token.stop + 1 =
        offset + (Stroke.written (clause.strokes ++ fromStrokes source)).length ∧
      semicolon.isPunct ";" = true ∧
      Reading.importFrom typeOnly
          ⟨Stroke.tokens false offset (clause.strokes ++ fromStrokes source) ++ rest, fence⟩ =
        some (clause.into { typeOnly }, token, ⟨semicolon :: rest, fence⟩) := by
  obtain ⟨token, semicolon, value, place, ends, read⟩ :=
    exists_fromSource source (offset + (Stroke.written clause.strokes).length) fence rest
  refine ⟨token, semicolon, value, ?_, ends, ?_⟩
  · simp [place, Stroke.written_append, fromStrokes, sourceEnd]
    omega
  · obtain ⟨first, others, same, kind, -⟩ := clause.exists_first offset
    have clauseRead := @Clause.importClause_strokes clause { typeOnly := typeOnly } offset
      ⟨.identifier, "from", ⟨offset + (Stroke.written clause.strokes).length + 1,
        offset + (Stroke.written clause.strokes).length + 5⟩, false⟩ rfl
    have split : Stroke.tokens false offset (clause.strokes ++ fromStrokes source) ++ rest =
        Stroke.tokens false offset clause.strokes ++ (Stroke.tokens false
          (offset + (Stroke.written clause.strokes).length) (fromStrokes source) ++ rest) := by
      rw [Stroke.tokens_append, clause.phrase.unbroken, List.append_assoc]
    have other : (⟨Stroke.tokens false offset clause.strokes ++ (Stroke.tokens false
        (offset + (Stroke.written clause.strokes).length) (fromStrokes source) ++ rest),
        fence⟩ : Cursor).peek.kind ≠ .string := by
      rw [same]
      exact kind
    have taken : Reading.importClause { typeOnly := typeOnly } ⟨Stroke.tokens false offset
        clause.strokes ++ (Stroke.tokens false (offset + (Stroke.written clause.strokes).length)
          (fromStrokes source) ++ rest), fence⟩ = some (clause.into { typeOnly := typeOnly },
        ⟨Stroke.tokens false (offset + (Stroke.written clause.strokes).length)
          (fromStrokes source) ++ rest, fence⟩) := clauseRead _ fence
    rw [split, Reading.importFrom, if_neg other, taken]
    simp [read]

/-- An import is read with the word that says whether only types are taken. -/
theorem importStatement_of_importFrom {imports source semicolon : Token} {tokens : List Token}
    {typeOnly : Bool} {attributes : ImportAttributes}
    (marked : Reading.atTypeOnly ⟨tokens, fence⟩ = typeOnly)
    (found : Reading.importFrom typeOnly ⟨if typeOnly then tokens.tail else tokens, fence⟩ =
      some (attributes, source, ⟨semicolon :: rest, fence⟩))
    (ends : semicolon.isPunct ";" = true) :
    Reading.importStatement ⟨imports :: tokens, fence⟩ =
      some ([.mk (.importDecl { attributes with source := Text.unquote source.value })
        ⟨imports.start, source.stop⟩ []], ⟨rest, fence⟩) := by
  have advanced : (⟨imports :: tokens, fence⟩ : Cursor).advance = ⟨tokens, fence⟩ := rfl
  have behind : (if typeOnly = true then (⟨tokens, fence⟩ : Cursor).advance else ⟨tokens, fence⟩) =
      ⟨if typeOnly then tokens.tail else tokens, fence⟩ := by
    cases typeOnly <;> rfl
  have ended : (⟨semicolon :: rest, fence⟩ : Cursor).endStatement = some ⟨rest, fence⟩ :=
    if_pos ends
  simp [Reading.importStatement, advanced, marked, behind, found, ended, Cursor.peek]

/-- **An import is read** from its word on. -/
theorem exists_importStatement (form : ImportForm) (imports : Token) (offset : Nat)
    (rest : List Token) (fence : Token) :
    ∃ stop, stop + 1 = offset + (Stroke.written form.inside).length ∧
      Reading.importStatement ⟨imports :: (Stroke.tokens false offset form.inside ++ rest), fence⟩ =
        some ([.mk (.importDecl form.found) ⟨imports.start, stop⟩ []], ⟨rest, fence⟩) := by
  rw [inside, found]
  cases form.clause? with
  | none =>
    obtain ⟨past, place⟩ : ∃ past, past = offset + (quoted form.source).toList.length := ⟨_, rfl⟩
    let source : Token := ⟨.string, quoted form.source, ⟨offset, past⟩, false⟩
    let semicolon : Token := ⟨.punctuator, ";", ⟨past, past + 1⟩, false⟩
    have parts : Stroke.tokens false offset (sourceEnd form.source) ++ rest =
        source :: semicolon :: rest := by
      simp only [source, semicolon, place]
      rfl
    refine ⟨past, ?_, ?_⟩
    · simp [sourceEnd, place]
      omega
    · rw [parts]
      exact @importStatement_of_importFrom rest fence imports source semicolon
        (source :: semicolon :: rest) false { typeOnly := false } rfl rfl rfl
  | some clause =>
    cases form.typeOnly with
    | false =>
      obtain ⟨first, others, same, -, plain, -⟩ := clause.exists_first offset
      obtain ⟨token, semicolon, value, place, ends, read⟩ :=
        importFrom_clause false clause form.source offset rest fence
      refine ⟨token.stop, place, ?_⟩
      have marked : Reading.atTypeOnly ⟨Stroke.tokens false offset (clause.strokes ++
          fromStrokes form.source) ++ rest, fence⟩ = false := by
        rw [Stroke.tokens_append, same]
        simp [Reading.atTypeOnly, Cursor.peek, plain]
      rw [importStatement_of_importFrom marked read ends, value]
    | true =>
      obtain ⟨first, others, same, -, -, -, starts⟩ := clause.exists_first (offset + 5)
      obtain ⟨token, semicolon, value, place, ends, read⟩ :=
        importFrom_clause true clause form.source (offset + 5) rest fence
      refine ⟨token.stop, ?_, ?_⟩
      · rw [place]
        simp
        omega
      have marked : Reading.atTypeOnly ⟨Stroke.tokens false offset (word "type" :: space ::
          (clause.strokes ++ fromStrokes form.source)) ++ rest, fence⟩ = true := by
        have split : Stroke.tokens false offset (word "type" :: space ::
            (clause.strokes ++ fromStrokes form.source)) ++ rest =
            ⟨.identifier, "type", ⟨offset, offset + 4⟩, false⟩ :: first ::
              (others ++ Stroke.tokens false (offset + 5 + (Stroke.written clause.strokes).length)
                (fromStrokes form.source) ++ rest) := by
          rw [Stroke.tokens, Stroke.tokens_space, Stroke.tokens_append, clause.phrase.unbroken,
            List.cons_append]
          show _ :: (Stroke.tokens false (offset + 5) clause.strokes ++ _ ++ rest) = _
          rw [same]
          rfl
        rw [split]
        exact starts
      have found := @importStatement_of_importFrom rest fence imports _ _ _ _ _ marked read ends
      rw [value] at found
      exact found

/-- No bracket and no point follows the word of an import. -/
theorem plain_inside (form : ImportForm) (offset : Nat) (rest : List Token) (fence : Token) :
    (⟨Stroke.tokens false offset form.inside ++ rest, fence⟩ : Cursor).peek.isPunctIn ["(", "."] =
      false := by
  rw [inside]
  cases form.clause? with
  | none => rfl
  | some clause =>
    cases form.typeOnly with
    | true => rfl
    | false =>
      obtain ⟨first, others, same, -, -, plain, -⟩ := clause.exists_first offset
      rw [Stroke.tokens_append, same]
      exact plain

/-- An import is read as such. -/
theorem topStatement_import (reading : Reading) {imports : Token} {tokens : List Token}
    (word : imports.isWord "import" = true)
    (plain : (⟨tokens, fence⟩ : Cursor).peek.isPunctIn ["(", "."] = false) :
    reading.topStatement ⟨imports :: tokens, fence⟩ =
      Reading.importStatement ⟨imports :: tokens, fence⟩ := by
  have peeked : (⟨imports :: tokens, fence⟩ : Cursor).peek = imports := rfl
  have next : (⟨imports :: tokens, fence⟩ : Cursor).peekAt 1 = (⟨tokens, fence⟩ : Cursor).peek := by
    cases tokens <;> rfl
  obtain ⟨kind, -⟩ : imports.kind = .identifier ∧ imports.value = "import" := by
    simpa [Token.isWord] using word
  have other : imports.isPunct ";" = false := by simp [Token.isPunct, kind]
  simp [Reading.topStatement, peeked, next, other, word, plain]

/-- **An import is found** as such. -/
theorem statement (form : ImportForm) : Stroke.Statement form.strokes (.importDecl form.found) := by
  refine ⟨form.phrase, form.unclosed,
    fun {reading newline offset rest fence} _ _ _ _ => ?_⟩
  let imports : Token := ⟨.identifier, "import", ⟨offset, offset + 6⟩, newline⟩
  obtain ⟨stop, place, read⟩ := form.exists_importStatement imports (offset + 7) rest fence
  have parts : Stroke.tokens newline offset form.strokes ++ rest =
      imports :: (Stroke.tokens false (offset + 7) form.inside ++ rest) := rfl
  refine ⟨⟨offset, stop⟩, [], ?_, rfl, ?_⟩
  · rw [parts, topStatement_import reading rfl (form.plain_inside _ _ _)]
    exact read
  · simp [strokes]
    omega

end ImportForm

/-! ## Exports -/

/-- An export of names, or of everything from a source. What the text of an export has no place for
may be there as well. -/
inductive ExportForm where
  | names (named : List PlainName) (source : Option String) (wholeName : Option PlainName)
  | star (source : String) (filled : source ≠ "") (wholeName : Option PlainName)
      (named : List PlainName)

namespace ExportForm

/-- What is known about an export. -/
def attributes : ExportForm → ExportAttributes
  | .names named source wholeName =>
    { named := named.map PlainName.text, source, wholeName := wholeName.map PlainName.text }
  | .star source _ wholeName named =>
    { source := some source, named := named.map PlainName.text,
      wholeName := wholeName.map PlainName.text, isStar := true }

/-- The strokes of a source that may be missing, up to the end of the statement. -/
def sourceStrokes : Option String → List Stroke
  | some source => fromStrokes source
  | none => [sign ";"]

/-- The strokes of the name under which everything is exported. -/
def wholeStrokes : Option PlainName → List Stroke
  | some name => [space, word "as", space, word name.text]
  | none => []

/-- The strokes of an export. -/
def strokes : ExportForm → List Stroke
  | .names named source _ =>
    word "export" :: space :: (namesInBraces named ++ sourceStrokes (Text.given? source))
  | .star source _ wholeName _ =>
    word "export" :: space :: sign "*" :: (wholeStrokes wholeName ++ fromStrokes source)

/-- What is found out about an export. -/
def found : ExportForm → ExportAttributes
  | .names named source _ =>
    { named := named.map PlainName.text
      source := (Text.given? source).map fun source => Text.unquote (quoted source) }
  | .star source _ wholeName _ =>
    { source := some (Text.unquote (quoted source)), wholeName := wholeName.map PlainName.text,
      isStar := true }

variable {newline : Bool} {offset : Nat} {rest : List Token} {fence token : Token}

theorem written_strokes (form : ExportForm) :
    Stroke.written form.strokes = form.attributes.block.toList := by
  cases form with
  | names named source wholeName =>
    simp only [strokes, attributes, ExportAttributes.block]
    cases Text.given? source <;>
      simp [Stroke.written_append, written_namesInBraces, sourceStrokes, fromStrokes, sourceEnd,
        quoted, Text.given?]
  | star source filled wholeName named =>
    simp only [strokes, attributes, ExportAttributes.block, Text.given?_some filled,
      ImportForm.given?_text]
    cases wholeName <;>
      simp [wholeStrokes, fromStrokes, sourceEnd, quoted, Text.given?]

/-- What is found out is written in the same way. -/
theorem block_found (form : ExportForm) : form.found.block = form.attributes.block := by
  cases form with
  | names named source wholeName =>
    simp only [ExportForm.found, attributes, ExportAttributes.block]
    cases same : Text.given? source with
    | none => rfl
    | some source' =>
      have filled : source' ≠ "" := by
        rintro rfl
        cases source <;> simp [Text.given?, Text.nonempty?] at same
      have quote : Text.quote source' = quoted source' := rfl
      have given := Text.given?_some (unquote_quoted_ne filled)
      simp only [Option.map_some, given, quote, quote_unquote_quoted]
      rfl
  | star source filled wholeName named =>
    have quote : Text.quote source = quoted source := rfl
    have given := Text.given?_some filled
    have found := Text.given?_some (unquote_quoted_ne filled)
    simp only [ExportForm.found, attributes, ExportAttributes.block, found, given, quote,
      quote_unquote_quoted]
    rfl

theorem paired_fromStrokes (source : String) : Paired (fromStrokes source) :=
  .plain rfl (.plain rfl (.plain rfl (.plain rfl (.plain rfl .nil))))

theorem phrase (form : ExportForm) : Phrase form.strokes := by
  cases form with
  | names named source wholeName =>
    have names := phrase_namesInBraces named
    obtain ⟨legible, paired, breaks⟩ : (∀ {after before}, Legible after before
          (sourceStrokes (Text.given? source))) ∧ Paired (sourceStrokes (Text.given? source)) ∧
        Stroke.breaks false (sourceStrokes (Text.given? source)) = false := by
      cases Text.given? source with
      | none => exact ⟨.single (by decide) trivial, .plain rfl .nil, rfl⟩
      | some source => exact ⟨legible_fromStrokes source, paired_fromStrokes source, rfl⟩
    have chunk (after : List Char) :
        Lexer.chunk (Stroke.written (sourceStrokes (Text.given? source)) ++ after) = [] := by
      cases Text.given? source <;> exact Lexer.chunk_cons_of_ends (by decide) _
    refine ⟨fun {after before} ends => .word rfl rfl (.space ?_ (Stroke.legible_append.mpr
        ⟨names.legible (chunk after), legible⟩)), ⟨'e', _, rfl, rfl⟩,
      .plain rfl (.plain rfl (names.paired.append paired)), fun newline => ?_⟩
    · rw [Stroke.written_append, List.append_assoc]
      exact names.head _
    · refine (Stroke.breaks_append false (namesInBraces named) _).trans ?_
      rw [names.unbroken, breaks]
  | star source filled wholeName named =>
    have paired := paired_fromStrokes source
    cases wholeName with
    | none =>
      exact ⟨fun ends => .word rfl rfl (.space rfl (.sign (by decide)
          (.inl (Lexer.chunk_cons_of_ends (by decide) _)) (legible_fromStrokes source))),
        ⟨'e', _, rfl, rfl⟩, .plain rfl (.plain rfl (.plain rfl paired)), fun _ => rfl⟩
    | some name =>
      exact ⟨fun ends => .word rfl rfl (.space rfl (.sign (by decide)
          (.inl (Lexer.chunk_cons_of_ends (by decide) _)) (.space rfl (.word rfl rfl
            (.space (Stroke.solid_word name.isWhole) (.word name.isWhole rfl
              (legible_fromStrokes source))))))), ⟨'e', _, rfl, rfl⟩,
        .plain rfl (.plain rfl (.plain rfl (.plain rfl (.plain rfl (.plain rfl
          (.plain rfl paired)))))), fun _ => rfl⟩

theorem unclosed (form : ExportForm) (later : Unclosed rest) :
    Unclosed (Stroke.tokens newline offset form.strokes ++ rest) := by
  cases form with
  | star source filled wholeName named => exact .word (.wall rfl rfl)
  | names named source wholeName =>
    rw [strokes, Stroke.tokens, Stroke.tokens_space, Stroke.tokens_append, List.cons_append,
      List.append_assoc]
    refine .word (unclosed_namesInBraces named ?_)
    cases Text.given? source with
    | none => exact .cons (.inr rfl) later
    | some source => exact unclosed_fromStrokes source later

/-- A star is read with the name and the source behind it. -/
theorem exists_exportStar (source : String) (wholeName : Option PlainName) (start offset : Nat)
    (rest : List Token) (fence : Token) :
    ∃ stop, stop + 1 =
        offset + (Stroke.written (wholeStrokes wholeName ++ fromStrokes source)).length ∧
      Reading.exportStar start ⟨Stroke.tokens false offset
          (wholeStrokes wholeName ++ fromStrokes source) ++ rest, fence⟩ =
        some ([.mk (.exportDecl
          { source := some (Text.unquote (quoted source)),
            wholeName := wholeName.map PlainName.text, isStar := true }) ⟨start, stop⟩ []],
          ⟨rest, fence⟩) := by
  obtain ⟨token, semicolon, value, place, ends, read⟩ := exists_fromSource source
    (offset + (Stroke.written (wholeStrokes wholeName)).length) fence rest
  have ended : (⟨semicolon :: rest, fence⟩ : Cursor).endStatement = some ⟨rest, fence⟩ :=
    if_pos ends
  refine ⟨token.stop, ?_, ?_⟩
  · simp [place, Stroke.written_append, fromStrokes, sourceEnd]
    omega
  · have named : Reading.wholeName ⟨Stroke.tokens false offset
        (wholeStrokes wholeName ++ fromStrokes source) ++ rest, fence⟩ =
        some (wholeName.map PlainName.text, ⟨Stroke.tokens false
          (offset + (Stroke.written (wholeStrokes wholeName)).length) (fromStrokes source) ++ rest,
            fence⟩) := by
      cases wholeName with
      | none => rfl
      | some name =>
        rw [Stroke.tokens_append, List.append_assoc]
        rfl
    simp [Reading.exportStar, named, read, ended, value]

/-- Names are read with the source behind them. -/
theorem exists_exportNamed (named : List PlainName) (source : Option String) (start offset : Nat)
    (rest : List Token) (fence : Token) :
    ∃ stop, stop + 1 =
        offset + (Stroke.written (namesInBraces named ++ sourceStrokes source)).length ∧
      Reading.exportNamed start ⟨Stroke.tokens false offset
          (namesInBraces named ++ sourceStrokes source) ++ rest, fence⟩ =
        some ([.mk (.exportDecl
          { named := named.map PlainName.text
            source := source.map fun source => Text.unquote (quoted source) }) ⟨start, stop⟩ []],
          ⟨rest, fence⟩) := by
  have names := (phrase_namesInBraces named).unbroken false
  have length := congrArg List.length (written_namesInBraces named)
  obtain ⟨past, pastNames⟩ : ∃ past, past = offset +
    (braced (named.map PlainName.text)).toList.length := ⟨_, rfl⟩
  have split : Stroke.tokens false offset (namesInBraces named ++ sourceStrokes source) ++ rest =
      Stroke.tokens false offset (namesInBraces named) ++
        (Stroke.tokens false past (sourceStrokes source) ++ rest) := by
    rw [Stroke.tokens_append, names, length, ← pastNames, List.append_assoc]
  obtain ⟨closer, closerPlace, found⟩ := exists_specifierList named
    (Stroke.tokens false past (sourceStrokes source) ++ rest) offset fence
  rw [split, Stroke.written_append, List.length_append, length, ← Nat.add_assoc, ← pastNames]
  cases source with
  | none =>
    refine ⟨past, rfl, ?_⟩
    have behind : Reading.exportSource closer
        ⟨Stroke.tokens false past (sourceStrokes none) ++ rest, fence⟩ =
        some (none, closer.stop, ⟨⟨.punctuator, ";", ⟨past, past + 1⟩, false⟩ :: rest, fence⟩) :=
      rfl
    have ended : (⟨⟨.punctuator, ";", ⟨past, past + 1⟩, false⟩ :: rest, fence⟩ :
        Cursor).endStatement = some ⟨rest, fence⟩ := rfl
    have stop : closer.stop = past := closerPlace.trans pastNames.symm
    simp [Reading.exportNamed, found, behind, ended, stop]
  | some source =>
    obtain ⟨token, semicolon, value, place, ends, read⟩ := exists_fromSource source past fence rest
    have ended : (⟨semicolon :: rest, fence⟩ : Cursor).endStatement = some ⟨rest, fence⟩ :=
      if_pos ends
    have word : (⟨Stroke.tokens false past (sourceStrokes (some source)) ++ rest, fence⟩ :
        Cursor).peek.isWord "from" = true := rfl
    refine ⟨token.stop, ?_, ?_⟩
    · simp [place, sourceStrokes, fromStrokes, sourceEnd]
      omega
    · rw [sourceStrokes] at found word ⊢
      simp [Reading.exportNamed, found, Reading.exportSource, word, read, ended, value]

/-- **An export is found** as such. -/
theorem statement (form : ExportForm) : Stroke.Statement form.strokes (.exportDecl form.found) := by
  refine ⟨form.phrase, form.unclosed, fun {reading newline offset rest fence} _ _ _ _ => ?_⟩
  let exported : Token := ⟨.identifier, "export", ⟨offset, offset + 6⟩, newline⟩
  cases form with
  | names named source wholeName =>
    obtain ⟨stop, place, read⟩ :=
      exists_exportNamed named (Text.given? source) offset (offset + 7) rest fence
    have parts : Stroke.tokens newline offset (names named source wholeName).strokes ++ rest =
        exported :: (Stroke.tokens false (offset + 7)
          (namesInBraces named ++ sourceStrokes (Text.given? source)) ++ rest) := rfl
    refine ⟨⟨offset, stop⟩, [], ?_, rfl, ?_⟩
    · rw [parts, reading.topStatement_export rfl]
      cases named <;> exact read
    · simp [strokes]
      omega
  | star source filled wholeName named =>
    let star : Token := ⟨.punctuator, "*", ⟨offset + 7, offset + 8⟩, false⟩
    obtain ⟨stop, place, read⟩ := exists_exportStar source wholeName offset (offset + 8) rest fence
    have parts : Stroke.tokens newline offset (ExportForm.star source filled wholeName
        named).strokes ++ rest = exported :: star :: (Stroke.tokens false (offset + 8)
          (wholeStrokes wholeName ++ fromStrokes source) ++ rest) := rfl
    refine ⟨⟨offset, stop⟩, [], ?_, rfl, ?_⟩
    · rw [parts, reading.topStatement_export rfl]
      exact read
    · simp [strokes]
      omega

end ExportForm

end SourceCanvas
