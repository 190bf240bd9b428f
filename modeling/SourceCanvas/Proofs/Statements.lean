import SourceCanvas.Outline.Parser
import SourceCanvas.Program.Block
import SourceCanvas.Proofs.Terms

/-!
# Written statements

Strokes are one statement if every reader that comes to them finds one construct and goes on behind
them, whatever stands there (`Stroke.Statement`). So the statements of a text can be dealt with one
by one. Here the declarations of variables are shown to be statements, with plain names
(`statement_variable`) as with names that are made up for terms (`statement_term`).
-/

namespace SourceCanvas

open Stroke (Legible Phrase Paired listed word space)

/-! ## Types of names -/

namespace WrittenType

/-- The text of the type of a name, with the mark before it. -/
def typedText : Option (WrittenType false) → String
  | some type => ": " ++ type.text
  | none => ""

/-- The strokes of the type of a name, with the mark before it. -/
def typed : Option (WrittenType false) → List Stroke
  | some type => .sign ":" :: space :: type.strokes 0
  | none => []

variable {after : List Char} {before newline : Bool} {offset : Nat} {rest : List Token}

theorem written_typed (type : Option (WrittenType false)) :
    Stroke.written (typed type) = (typedText type).toList := by
  cases type <;> simp [typed, typedText, written_strokes]

theorem legible_typed (type : Option (WrittenType false)) (ends : Lexer.chunk after = []) :
    Legible after before (typed type) := by
  cases type with
  | none => trivial
  | some type => exact .single (by decide) (.space (type.solid _) (type.legible ends))

theorem paired_typed (type : Option (WrittenType false)) : Paired (typed type) := by
  cases type with
  | none => exact .nil
  | some type => exact .plain rfl (.plain rfl (type.paired 0))

theorem breaks_typed (type : Option (WrittenType false)) :
    Stroke.breaks false (typed type) = false := by
  cases type with
  | none => rfl
  | some type => exact type.breaks_strokes _ 0

theorem chunk_typed (type : Option (WrittenType false)) (ends : Lexer.chunk after = []) :
    Lexer.chunk (Stroke.written (typed type) ++ after) = [] := by
  cases type with
  | none => exact ends
  | some type => exact Lexer.chunk_cons_of_ends (by decide) _

theorem unclosed_typed (type : Option (WrittenType false)) (later : Unclosed rest) :
    Unclosed (Stroke.tokens newline offset (typed type) ++ rest) := by
  cases type with
  | none => exact later
  | some type => exact .cons (.inr rfl) (.type type later)

/-- The type of a name is read before a token that it ends before, if there is one. -/
theorem read_typed (type : Option (WrittenType false)) {ending : Extent.TypeEnd}
    {fence token : Token} (stops : ending.stops ⊆ endMarks)
    (ends : ∀ last, Extent.completesType (some last) = true →
      ending.endsBefore (some last) token = true)
    (other : token.isPunct ":" = false) (offset : Nat) :
    (let cursor : Cursor := ⟨Stroke.tokens false offset (typed type) ++ token :: rest, fence⟩
      if cursor.peek.isPunct ":" then
        (Extent.type? cursor.advance ending).map fun (span, cursor) => (some span, cursor)
      else
        some (none, cursor)) =
      some (type.map fun type => ⟨offset + 2, offset + 2 + type.text.toList.length⟩,
        ⟨token :: rest, fence⟩) := by
  cases type with
  | none => exact if_neg (Bool.eq_false_iff.mp other)
  | some type =>
    have found : Extent.type?
        ⟨Stroke.tokens false (offset + 2) (type.strokes 0) ++ token :: rest, fence⟩ ending = _ :=
      type.type?_strokes stops ends (offset + 2)
    rw [typed, Stroke.tokens, Stroke.tokens_space]
    exact congrArg (Option.map fun found : Span × Cursor => (some found.1, found.2)) found

/-- The type that is read has its text. -/
theorem map_text_typed (reading : Reading) (type : Option (WrittenType false)) {offset : Nat}
    (stands : StandsAt reading.source offset (typedText type).toList) :
    (type.map fun type => (⟨offset + 2, offset + 2 + type.text.toList.length⟩ : Span)).map
      reading.text = type.map text := by
  cases type with
  | none => rfl
  | some type =>
    exact congrArg some (stands.within [':', ' '] [] (by simp [typedText]) rfl).slice_text

theorem text_ne (type : WrittenType false) : type.text ≠ "" :=
  Phrase.text_ne type.phrase ((type.written_strokes 0).trans (List.append_nil _))

end WrittenType

/-- The mark of what may be missing. -/
def optionMark (optional : Bool) : String := if optional then "?" else ""

/-- The strokes of a name, with the mark if what it names may be missing, and with its type. -/
def labelled (name : PlainName) (optional : Bool) (type : Option (WrittenType false)) :
    List Stroke :=
  if optional then word name.text :: .sign "?" :: WrittenType.typed type
  else word name.text :: WrittenType.typed type

section Labelled

variable {name : PlainName} {optional newline : Bool} {type : Option (WrittenType false)}
  {offset : Nat} {rest : List Token}

theorem written_labelled (name : PlainName) (optional : Bool) (type : Option (WrittenType false)) :
    Stroke.written (labelled name optional type) =
      (name.text ++ optionMark optional ++ WrittenType.typedText type).toList := by
  cases optional <;> simp [labelled, optionMark, WrittenType.written_typed]

/-- A name with its type is a phrase. -/
theorem phrase_labelled (name : PlainName) (optional : Bool) (type : Option (WrittenType false)) :
    Phrase (labelled name optional type) := by
  have typed {after : List Char} {before : Bool} (ends : Lexer.chunk after = []) :
      Legible after before (WrittenType.typed type) := WrittenType.legible_typed type ends
  cases optional with
  | false =>
    refine ⟨fun ends => .word name.isWhole ?_ (typed ends), name.phrase.solid_append _,
      .plain rfl (WrittenType.paired_typed type), fun _ => WrittenType.breaks_typed type⟩
    exact Lexer.head_not_continuesWord (WrittenType.chunk_typed type ends)
  | true =>
    exact ⟨fun ends => .word name.isWhole rfl
        (.sign (by decide) (.inl (WrittenType.chunk_typed type ends)) (typed ends)),
      name.phrase.solid_append _, .plain rfl (.plain rfl (WrittenType.paired_typed type)),
      fun _ => WrittenType.breaks_typed type⟩

theorem unclosed_labelled (later : Unclosed rest) :
    Unclosed (Stroke.tokens newline offset (labelled name optional type) ++ rest) := by
  cases optional with
  | false => exact .word (WrittenType.unclosed_typed type later)
  | true => exact .word (.cons (.inr rfl) (WrittenType.unclosed_typed type later))

/-- The token of the mark, if there is one. -/
def markTokens (optional : Bool) (offset : Nat) : List Token :=
  if optional then [⟨.punctuator, "?", ⟨offset, offset + 1⟩, false⟩] else []

theorem tokens_labelled (name : PlainName) (optional : Bool) (type : Option (WrittenType false))
    (newline : Bool) (offset : Nat) :
    Stroke.tokens newline offset (labelled name optional type) =
      ⟨.identifier, name.text, ⟨offset, offset + name.text.toList.length⟩, newline⟩ ::
        (markTokens optional (offset + name.text.toList.length) ++
          Stroke.tokens false (offset + (name.text ++ optionMark optional).toList.length)
            (WrittenType.typed type)) := by
  cases optional with
  | false => simp [labelled, Stroke.tokens, markTokens, optionMark]
  | true => simp [labelled, Stroke.tokens, markTokens, optionMark, Nat.add_assoc]

/-- The mark is found and passed over. -/
theorem peek_markTokens {fence : Token}
    (other : (⟨rest, fence⟩ : Cursor).peek.isPunct "?" = false) :
    (⟨markTokens optional offset ++ rest, fence⟩ : Cursor).peek.isPunct "?" = optional ∧
    (⟨markTokens optional offset ++ rest, fence⟩ : Cursor).skipPunct "?" = ⟨rest, fence⟩ := by
  cases optional with
  | false => exact ⟨other, if_neg (Bool.eq_false_iff.mp other)⟩
  | true => exact ⟨rfl, rfl⟩

end Labelled

/-! ## Statements -/

/-- Strokes that are one statement: whatever comes behind them, a reader of a text in which they
stand takes them for a construct with the given attributes. -/
structure Stroke.Statement (strokes : List Stroke) (attributes : Attributes) : Prop where
  phrase : Phrase strokes
  unclosed : ∀ {newline offset rest}, Unclosed rest →
    Unclosed (Stroke.tokens newline offset strokes ++ rest)
  read : ∀ {reading : Reading} {newline offset rest fence}, reading.reclassify = true →
    fence.Closes → Unclosed rest → StandsAt reading.source offset (Stroke.written strokes) →
    ∃ span children,
      reading.topStatement ⟨Stroke.tokens newline offset strokes ++ rest, fence⟩ =
        some ([.mk attributes span children], ⟨rest, fence⟩) ∧
      span.start = offset ∧ span.stop ≤ offset + (Stroke.written strokes).length ∧
      offset + (Stroke.written strokes).length ≤ span.stop + 1

/-- An export is read as such. -/
theorem Reading.topStatement_export (reading : Reading) {exported : Token} {rest : List Token}
    {fence : Token} (exports : exported.isWord "export" = true) :
    reading.topStatement ⟨exported :: rest, fence⟩ =
      reading.exportStatement ⟨exported :: rest, fence⟩ := by
  obtain ⟨kind, value⟩ : exported.kind = .identifier ∧ exported.value = "export" := by
    simpa [Token.isWord] using exports
  simp [topStatement, Cursor.peek, Token.isWord, Token.isPunct, kind, value]

/-! ## Bindings -/

/-- A word that declares variables. -/
structure Keyword where
  text : String
  listed : text ∈ variableWords

/-- The strokes of the declaration that gives a value to a name. -/
def binding (keyword : Keyword) (name : String) (type : Option (WrittenType false))
    (value : Initializer) : List Stroke :=
  word "export" :: space :: word keyword.text :: space :: word name ::
    (WrittenType.typed type ++ space :: .sign "=" :: space :: (value.strokes ++ [.sign ";"]))

section Binding

variable {keyword : Keyword} {name : String} {type : Option (WrittenType false)}
  {value : Initializer} {newline : Bool} {offset : Nat} {rest : List Token} {fence : Token}

theorem Keyword.isWhole (keyword : Keyword) : Lexer.isWhole keyword.text.toList = true := by
  have whole : ∀ text ∈ variableWords, Lexer.isWhole text.toList = true := by decide
  exact whole _ keyword.listed

theorem written_binding (keyword : Keyword) (name : String) (type : Option (WrittenType false))
    (value : Initializer) : Stroke.written (binding keyword name type value) =
      ("export " ++ keyword.text ++ " " ++ name ++ WrittenType.typedText type ++ " = " ++
        value.text ++ ";").toList := by
  simp [binding, Stroke.written_append, WrittenType.written_typed, value.written_strokes]

/-- The declaration of a word is a phrase. -/
theorem phrase_binding (whole : Lexer.isWhole name.toList = true) :
    Phrase (binding keyword name type value) := by
  refine ⟨fun {after before} ends => ?_, ⟨'e', _, rfl, rfl⟩, ?_, fun newline => ?_⟩
  · have equals : Lexer.chunk (Stroke.written (space :: .sign "=" :: space ::
        (value.strokes ++ [.sign ";"])) ++ after) = [] := Lexer.chunk_cons_of_ends (by decide) _
    refine .word rfl rfl (.space (Stroke.solid_word keyword.isWhole) (.word keyword.isWhole rfl
      (.space (Stroke.solid_word whole) (.word whole ?_ (Stroke.legible_append.mpr
        ⟨WrittenType.legible_typed type equals, ?_⟩)))))
    · rw [Stroke.written_append, List.append_assoc]
      exact Lexer.head_not_continuesWord (WrittenType.chunk_typed type equals)
    · refine .space rfl (.sign (by decide) (.inl (Lexer.chunk_cons_of_ends (by decide) _))
        (.space ?_ (Stroke.legible_append.mpr
          ⟨value.phrase.legible (Lexer.chunk_cons_of_ends (by decide) _),
            .single (by decide) trivial⟩)))
      rw [Stroke.written_append, List.append_assoc]
      exact value.phrase.head _
  · exact .plain rfl (.plain rfl (.plain rfl (.plain rfl (.plain rfl
      ((WrittenType.paired_typed type).append (.plain rfl (.plain rfl (.plain rfl
        (value.phrase.paired.append (.plain rfl .nil)))))))))) 
  · exact (Stroke.breaks_append false (WrittenType.typed type) _).trans
      ((Stroke.breaks_append _ value.strokes [.sign ";"]).trans rfl)

/-- No list of type arguments goes on behind the value of a name. -/
theorem unclosed_binding : Unclosed (Stroke.tokens newline offset
    (binding keyword name type value) ++ rest) := by
  simp only [binding, Stroke.tokens, Stroke.tokens_space, Stroke.tokens_append, List.cons_append,
    List.append_assoc]
  exact .word (.word (.word (WrittenType.unclosed_typed type (.wall rfl rfl))))

/-! ### How bindings are read -/

/-- The type of a name is read before the mark behind which its value stands. -/
theorem exists_declaredType (type : Option (WrittenType false)) {token mark : Token}
    (equals : mark.isPunct "=" = true) (offset : Nat) :
    ∃ stop, Reading.declaredType token
        ⟨Stroke.tokens false offset (WrittenType.typed type) ++ mark :: rest, fence⟩ =
      some (type.map fun type => ⟨offset + 2, offset + 2 + type.text.toList.length⟩, stop,
        ⟨mark :: rest, fence⟩) := by
  obtain ⟨kind, value⟩ := Token.isPunct_iff.mp equals
  cases type with
  | none =>
    refine ⟨token.stop, ?_⟩
    simp [WrittenType.typed, Stroke.tokens, Reading.declaredType, Cursor.peek, Cursor.skipPunct,
      Token.isPunct, value]
  | some type =>
    have ends (last : Token) (complete : Extent.completesType (some last) = true) :
        Extent.TypeEnd.endsBefore ⟨["=", ";", ","], false⟩ (some last) mark = true := by
      simp [Extent.TypeEnd.endsBefore, Token.isPunctIn, kind, value]
    have found : Extent.type? ⟨Stroke.tokens false (offset + 2) (type.strokes 0) ++ mark :: rest,
        fence⟩ ⟨["=", ";", ","], false⟩ = _ := type.type?_strokes (by decide) ends (offset + 2)
    refine ⟨offset + 2 + type.text.toList.length, ?_⟩
    rw [WrittenType.typed, Stroke.tokens, Stroke.tokens_space]
    exact congrArg (Option.map fun found : Span × Cursor =>
      (some found.1, found.1.stop, found.2)) found

/-- The value of a name is read before the semicolon. -/
theorem initializer_value (value : Initializer) {mark token : Token}
    (equals : mark.isPunct "=" = true) (closes : token.isPunctIn Expr.closers = true)
    (unclosed : Unclosed (token :: rest)) (closed : fence.Closes) (offset : Nat) :
    Reading.initializer
        ⟨mark :: (Stroke.tokens false offset value.strokes ++ token :: rest), fence⟩ =
      some (some (value.expr offset), ⟨token :: rest, fence⟩) := by
  have found : Cursor.expression
      ⟨Stroke.tokens false offset value.strokes ++ token :: rest, fence⟩ =
      some (value.expr offset, ⟨token :: rest, fence⟩) :=
    value.read_assignment closed closes unclosed
  have advanced : (⟨mark :: (Stroke.tokens false offset value.strokes ++ token :: rest), fence⟩ :
      Cursor).advance = ⟨Stroke.tokens false offset value.strokes ++ token :: rest, fence⟩ := rfl
  have peeked : (⟨mark :: (Stroke.tokens false offset value.strokes ++ token :: rest), fence⟩ :
      Cursor).peek.isPunct "=" = true := equals
  rw [Reading.initializer, if_pos peeked, advanced, found]
  rfl

/-- An exported declaration of variables is read from the word that declares them on. -/
theorem topStatement_variables (reading : Reading) (keyword : Keyword)
    {exported declares named : Token} (exports : exported.isWord "export" = true)
    (kind : declares.kind = .identifier) (value : declares.value = keyword.text)
    (other : named.isWord "enum" = false) :
    reading.topStatement ⟨exported :: declares :: named :: rest, fence⟩ =
      reading.variableStatement exported.start ⟨declares :: named :: rest, fence⟩ := by
  have plain : ∀ text ∈ variableWords,
      text ≠ "default" ∧ text ≠ "interface" ∧ text ≠ "function" ∧ text ≠ "async" := by decide
  have listed : declares.isWordIn variableWords = true :=
    Token.isWordIn_iff.mpr ⟨kind, value ▸ keyword.listed⟩
  rw [reading.topStatement_export exports]
  simp [Reading.exportStatement, Cursor.peek, Cursor.peekAt, Cursor.advance, Reading.atFunction,
    Token.isWord, Token.isPunct, kind, value, plain _ keyword.listed, listed]
  intro word enum
  simp [Token.isWord, word, enum] at other

/-- One declaration is read up to the semicolon behind its value. -/
theorem variableStatement_single (reading : Reading) {start stop : Nat}
    {declares named semicolon : Token} {tokens behind : List Token} {type : Option Span}
    {value : Expr} (identifies : named.kind = .identifier) (ends : semicolon.isPunct ";" = true)
    (typed : Reading.declaredType named ⟨tokens, fence⟩ = some (type, stop, ⟨behind, fence⟩))
    (given : Reading.initializer ⟨behind, fence⟩ = some (some value, ⟨semicolon :: rest, fence⟩)) :
    reading.variableStatement start ⟨declares :: named :: tokens, fence⟩ =
      some ([reading.declaration declares.value named.value type (some value) ⟨start, value.stop⟩],
        ⟨rest, fence⟩) := by
  have comma : semicolon.isPunct "," = false := by
    obtain ⟨-, value⟩ := Token.isPunct_iff.mp ends
    simp [Token.isPunct, value]
  simp [Reading.variableStatement, Reading.declarations, descend, Reading.declarationStep,
    Cursor.expectIdentifier, Cursor.peek, Cursor.advance, identifies, typed, given, comma,
    Cursor.endStatement, ends]

/-- Where the type of a name starts, with the mark before it. -/
def typeAt (keyword : Keyword) (name : String) (offset : Nat) : Nat :=
  offset + ("export " ++ keyword.text ++ " " ++ name).toList.length

/-- Where the value of a name starts. -/
def valueAt (keyword : Keyword) (name : String) (type : Option (WrittenType false))
    (offset : Nat) : Nat :=
  offset + ("export " ++ keyword.text ++ " " ++ name ++ WrittenType.typedText type ++
    " = ").toList.length

/-- **A binding is read** as a declaration of one name. -/
theorem topStatement_binding (reading : Reading) (closed : fence.Closes) (plain : name ≠ "enum")
    (unclosed : Unclosed rest) :
    reading.topStatement
        ⟨Stroke.tokens newline offset (binding keyword name type value) ++ rest, fence⟩ =
      some ([reading.declaration keyword.text name
          (type.map fun type => ⟨typeAt keyword name offset + 2,
            typeAt keyword name offset + 2 + type.text.toList.length⟩)
          (some (value.expr (valueAt keyword name type offset)))
          ⟨offset, valueAt keyword name type offset + value.text.toList.length⟩],
        ⟨rest, fence⟩) := by
  obtain ⟨past, pastName⟩ : ∃ past, past = offset + 6 + 1 + keyword.text.toList.length + 1 +
    name.toList.length := ⟨_, rfl⟩
  obtain ⟨mark, pastType⟩ : ∃ mark, mark = past + (WrittenType.typedText type).toList.length + 1 :=
    ⟨_, rfl⟩
  let named : Token :=
    ⟨.identifier, name, ⟨offset + 7 + keyword.text.toList.length + 1, past⟩, false⟩
  let equals : Token := ⟨.punctuator, "=", ⟨mark, mark + 1⟩, false⟩
  let semicolon : Token := ⟨.punctuator, ";", ⟨mark + 2 + value.text.toList.length,
    mark + 2 + value.text.toList.length + 1⟩, false⟩
  have parts : Stroke.tokens newline offset (binding keyword name type value) ++ rest =
      ⟨.identifier, "export", ⟨offset, offset + 6⟩, newline⟩ ::
        ⟨.identifier, keyword.text,
          ⟨offset + 7, offset + 7 + keyword.text.toList.length⟩, false⟩ :: named ::
        (Stroke.tokens false past (WrittenType.typed type) ++ equals ::
          (Stroke.tokens false (mark + 2) value.strokes ++ semicolon :: rest)) := by
    simp only [binding, Stroke.tokens, Stroke.tokens_space, Stroke.tokens_append,
      WrittenType.breaks_typed, WrittenType.written_typed, value.phrase.unbroken,
      value.written_strokes, List.cons_append, List.append_assoc]
    subst pastName pastType
    rfl
  have typePlace : past = typeAt keyword name offset := by
    simp [pastName, typeAt]
    omega
  have valuePlace : mark + 2 = valueAt keyword name type offset := by
    simp [pastName, pastType, valueAt]
    omega
  obtain ⟨stop, typed⟩ : ∃ stop, Reading.declaredType named
      ⟨Stroke.tokens false past (WrittenType.typed type) ++ equals ::
        (Stroke.tokens false (mark + 2) value.strokes ++ semicolon :: rest), fence⟩ = _ :=
    exists_declaredType type rfl past
  have given : Reading.initializer
      ⟨equals :: (Stroke.tokens false (mark + 2) value.strokes ++ semicolon :: rest), fence⟩ = _ :=
    initializer_value value rfl rfl (.cons (.inr rfl) unclosed) closed (mark + 2)
  rw [parts, topStatement_variables reading keyword rfl rfl rfl
    (by simp [named, Token.isWord, plain]), variableStatement_single reading rfl rfl typed given,
    ← typePlace, ← valuePlace]
  simp only [Expr.stop, value.span_expr]
  rfl

/-- Where the parts of a binding stand. -/
theorem standsAt_binding {source : List Char}
    (stands : StandsAt source offset (Stroke.written (binding keyword name type value))) :
    StandsAt source (valueAt keyword name type offset) value.text.toList ∧
    StandsAt source (typeAt keyword name offset) (WrittenType.typedText type).toList := by
  rw [written_binding] at stands
  exact ⟨stands.within ("export " ++ keyword.text ++ " " ++ name ++ WrittenType.typedText type ++
      " = ").toList [';'] (by simp) rfl,
    stands.within ("export " ++ keyword.text ++ " " ++ name).toList
      (" = " ++ value.text ++ ";").toList (by simp) rfl⟩

/-- **A variable with a plain name** is found as such. -/
theorem statement_variable (keyword : Keyword) (name : PlainName)
    (type : Option (WrittenType false)) (value : Initializer) :
    Stroke.Statement (binding keyword name.text type value)
      (.variableDecl { name := name.text, declaredType := type.map WrittenType.text,
                       initializer := some value.text, keyword := keyword.text }) := by
  refine ⟨phrase_binding name.isWhole, fun _ => unclosed_binding,
    fun {reading newline offset rest fence} _ closed unclosed stands => ?_⟩
  obtain ⟨valueStands, typeStands⟩ := standsAt_binding stands
  have valueText : reading.text (value.expr (valueAt keyword name.text type offset)).span =
      value.text := by
    rw [value.span_expr]
    exact valueStands.slice_text
  have typeText := WrittenType.map_text_typed reading type typeStands
  have other (expr : Expr) (span : Span) :
      reading.reclassified? name.text expr span = none := by
    simp [Reading.reclassified?, name.generatedKind?]
  refine ⟨⟨offset, valueAt keyword name.text type offset + value.text.toList.length⟩,
    (Expr.constructs reading.source (value.expr (valueAt keyword name.text type offset))),
    ?_, rfl, ?_⟩
  · rw [topStatement_binding reading closed (name.ne_of_mem (by decide)) unclosed]
    simp only [Reading.declaration, Option.bind_some, other, typeText, Option.map_some, valueText]
    rfl
  · simp [written_binding, valueAt]
    omega

/-- **A term that is bound to a made-up name** of its kind is found with this name. -/
theorem statement_term (keyword : Keyword) (term : Term) {id : String} (filled : id ≠ "") :
    Stroke.Statement
      (binding keyword (Naming.synthesizedName (some term.attributes.kind) id) none
        (.composed term))
      (term.found.withName (Naming.synthesizedName (some term.attributes.kind) id)) := by
  have kind : term.attributes.kind ∈ Naming.beginnings.map Prod.fst := by
    cases term <;> simp [Term.attributes, Attributes.kind, Naming.beginnings]
  generalize named : Naming.synthesizedName (some term.attributes.kind) id = name
  have generated := generatedKind?_synthesizedName kind filled
  have plain : name ≠ "enum" := named ▸ synthesizedName_ne _ id (by decide)
  rw [named] at generated
  refine ⟨phrase_binding (named ▸ isWhole_synthesizedName _ id), fun _ => unclosed_binding,
    fun {reading newline offset rest fence} on closed unclosed stands => ?_⟩
  obtain ⟨valueStands, -⟩ := standsAt_binding stands
  let span : Span :=
    ⟨offset, valueAt keyword name none offset + (Initializer.composed term).text.toList.length⟩
  obtain ⟨children, found⟩ := term.reclassified?_expr reading on valueStands generated span
  refine ⟨span, children, ?_, rfl, ?_⟩
  · rw [topStatement_binding reading closed plain unclosed]
    simp only [Reading.declaration, Option.bind_some]
    rw [Initializer.expr, found]
  · simp [span, written_binding, valueAt]
    omega

end Binding

end SourceCanvas
