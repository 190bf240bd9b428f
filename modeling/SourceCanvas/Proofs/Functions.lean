import SourceCanvas.Proofs.Interfaces
import SourceCanvas.Proofs.Reindenting

/-!
# Written functions

The text of a function with plain parameters and no captured body is a statement
(`FunctionForm.statement`). The function is found with the line that was written as its body, which
is captured without the indentation, so that its text is the same whatever the step and whatever is
found inside it (`FunctionForm.block_found`).
-/

namespace SourceCanvas

open Stroke (Legible Phrase Paired lineBreak listed tokens_lineBreak word sign space)

/-! ## Parameters -/

/-- A parameter without a default. -/
structure Formal where
  name : PlainName
  type : Option (WrittenType false)
  optional : Bool

namespace Formal

open Expr (read read_eq)

/-- What is known about a parameter. -/
def parameter (formal : Formal) : Parameter :=
  { name := formal.name.text, type := formal.type.map WrittenType.text,
    optional := formal.optional }

/-- The strokes of a parameter. -/
def strokes (formal : Formal) : List Stroke := labelled formal.name formal.optional formal.type

/-- Where the type of a parameter starts, with the mark before it. -/
def typeAt (formal : Formal) (offset : Nat) : Nat :=
  offset + (formal.name.text ++ optionMark formal.optional).toList.length

/-- Where the parts of a parameter lie. -/
def spans (formal : Formal) (offset : Nat) : ParameterSpans :=
  { name := ⟨offset, offset + formal.name.text.toList.length⟩
    optional := formal.optional
    type := formal.type.map fun type =>
      ⟨formal.typeAt offset + 2, formal.typeAt offset + 2 + type.text.toList.length⟩
    value := none }

variable {newline : Bool} {offset : Nat} {rest : List Token} {fence token : Token}

theorem written_strokes (formal : Formal) :
    Stroke.written formal.strokes = formal.parameter.render.toList := by
  rw [strokes, written_labelled]
  cases same : formal.type with
  | none => simp [parameter, Parameter.render, same, WrittenType.typedText, optionMark]
  | some type =>
    simp [parameter, Parameter.render, same, WrittenType.typedText, optionMark, type.text_ne]

theorem phrase (formal : Formal) : Phrase formal.strokes := phrase_labelled _ _ _

theorem unclosed (formal : Formal) (later : Unclosed rest) :
    Unclosed (Stroke.tokens newline offset formal.strokes ++ rest) := unclosed_labelled later

/-- The type of a parameter is read up to what ends the parameter. -/
theorem parameterType_typed (type : Option (WrittenType false))
    (ends : token.isPunctIn [",", ")"] = true) (offset : Nat) :
    Cursor.parameterType
        ⟨Stroke.tokens false offset (WrittenType.typed type) ++ token :: rest, fence⟩ =
      some (type.map fun type => ⟨offset + 2, offset + 2 + type.text.toList.length⟩,
        ⟨token :: rest, fence⟩) := by
  obtain ⟨kind, member⟩ := Token.isPunctIn_iff.mp ends
  have stops : token.isPunctIn [",", ")", "="] = true :=
    Token.isPunctIn_iff.mpr ⟨kind, List.mem_append_left ["="] member⟩
  have other : token.isPunct ":" = false := by
    refine Bool.eq_false_iff.mpr fun colon => ?_
    rw [(Token.isPunct_iff.mp colon).2] at member
    exact absurd member (by decide)
  exact WrittenType.read_typed type (by decide)
    (fun last _ => by simp [Extent.TypeEnd.endsBefore, stops]) other offset

/-- **A parameter is read** up to what ends it. -/
theorem read_parameter (formal : Formal) (closed : fence.Closes)
    (ends : token.isPunctIn [",", ")"] = true) :
    read .parameter ⟨Stroke.tokens newline offset formal.strokes ++ token :: rest, fence⟩ =
      some (formal.spans offset, ⟨token :: rest, fence⟩) := by
  obtain ⟨kind, member⟩ := Token.isPunctIn_iff.mp ends
  obtain ⟨marked, markedName⟩ : ∃ marked, marked = offset + formal.name.text.toList.length :=
    ⟨_, rfl⟩
  obtain ⟨past, place⟩ : ∃ past, past = offset + (formal.name.text ++
    optionMark formal.optional).toList.length := ⟨_, rfl⟩
  have label := tokens_labelled formal.name formal.optional formal.type newline offset
  rw [← markedName, ← place] at label
  let name : Token := ⟨.identifier, formal.name.text, ⟨offset, marked⟩, newline⟩
  let typed := Stroke.tokens false past (WrittenType.typed formal.type) ++ token :: rest
  have parts : Stroke.tokens newline offset formal.strokes ++ token :: rest =
      name :: (markTokens formal.optional marked ++ typed) := by
    rw [strokes, label, List.cons_append, List.append_assoc]
  have other (text : String) (apart : text ∉ [",", ")"]) : token.isPunct text = false := by
    refine Bool.eq_false_iff.mpr fun same => apart ?_
    rwa [(Token.isPunct_iff.mp same).2] at member
  have plain : (⟨typed, fence⟩ : Cursor).peek.isPunct "?" = false := by
    cases same : formal.type with
    | none =>
      simp only [typed, same]
      exact other "?" (by decide)
    | some type =>
      simp only [typed, same]
      rfl
  obtain ⟨mark, skipped⟩ := @peek_markTokens formal.optional marked typed fence plain
  have type : Cursor.parameterType ⟨typed, fence⟩ = _ := parameterType_typed formal.type ends past
  have modifiers : dropModifiers (name :: (markTokens formal.optional marked ++ typed)) =
      name :: (markTokens formal.optional marked ++ typed) := by
    have plain : name.isWordIn parameterModifiers = false :=
      formal.name.isWordIn _ _ _ (by decide)
    generalize markTokens formal.optional marked ++ typed = behind
    cases behind <;> simp [dropModifiers, plain]
  have advanced : (⟨name :: (markTokens formal.optional marked ++ typed), fence⟩ :
      Cursor).parameterName = some (name, ⟨markTokens formal.optional marked ++ typed, fence⟩) :=
    rfl
  have decorators : read .decorators
      ⟨name :: (markTokens formal.optional marked ++ typed), fence⟩ =
        some ((), ⟨name :: (markTokens formal.optional marked ++ typed), fence⟩) := by
    rw [read_eq closed]
    rfl
  have peeked : (⟨token :: rest, fence⟩ : Cursor).peek = token := rfl
  have start : (⟨name :: (markTokens formal.optional marked ++ typed), fence⟩ : Cursor).peek =
    name := rfl
  have spread : (⟨name :: (markTokens formal.optional marked ++ typed), fence⟩ :
      Cursor).skipPunct "..." = ⟨name :: (markTokens formal.optional marked ++ typed), fence⟩ := rfl
  have spans : formal.spans offset = ⟨⟨name.start, name.stop⟩, formal.optional,
      formal.type.map fun type => ⟨past + 2, past + 2 + type.text.toList.length⟩, none⟩ := by
    rw [Formal.spans, typeAt, ← place, ← markedName]
    rfl
  rw [parts, read_eq closed, Expr.step, Expr.parameter, spans]
  clear_value name
  simp [decorators, Cursor.move, modifiers, start, spread, advanced, mark, skipped, type, peeked,
    other]

/-- Where the parts of parameters lie that have a comma between neighbours. -/
def allSpans : List Formal → Nat → List ParameterSpans
  | [], _ => []
  | formal :: others, offset =>
    formal.spans offset :: allSpans others (offset + (Stroke.written formal.strokes).length + 2)

/-- Parameters are read up to the closing parenthesis. -/
theorem read_parameters (formals : List Formal) (offset : Nat) (closed : fence.Closes)
    (closes : token.isPunct ")" = true) :
    read .parameterTail
        ⟨Stroke.tokens false offset (listed (formals.map strokes)) ++ token :: rest, fence⟩ =
      some (allSpans formals offset, ⟨token :: rest, fence⟩) := by
  have other (formal : Formal) (offset : Nat) (rest : List Token) :
      (⟨Stroke.tokens false offset formal.strokes ++ rest, fence⟩ : Cursor).peek.isPunct ")" =
        false := by
    rw [strokes, tokens_labelled]
    rfl
  induction formals generalizing offset with
  | nil =>
    rw [read_eq closed]
    exact if_pos closes
  | cons formal others ih =>
    rw [read_eq closed, Expr.step, Expr.parameterTail]
    cases others with
    | nil =>
      obtain ⟨kind, value⟩ := Token.isPunct_iff.mp closes
      have ends : token.isPunctIn [",", ")"] = true :=
        Token.isPunctIn_iff.mpr ⟨kind, by rw [value]; decide⟩
      simp only [List.map_cons, List.map_nil, listed, other, read_parameter formal closed ends]
      simp [Cursor.peek, Token.isPunct, kind, value, allSpans]
    | cons next others =>
      rw [List.map_cons, List.map_cons, Stroke.tokens_listed (formal.phrase.unbroken false),
        List.append_assoc, List.cons_append]
      have later := ih (offset + (Stroke.written formal.strokes).length + 2)
      rw [List.map_cons] at later
      have comma (span : Span) :
          Token.isPunctIn ⟨.punctuator, ",", span, false⟩ [",", ")"] = true := rfl
      simp only [other, read_parameter formal closed (comma _)]
      simp [Cursor.peek, Cursor.advance, Token.isPunct, later, allSpans]

/-- **Parameters in parentheses are read.** -/
theorem parameters_listed (formals : List Formal) {offset : Nat} {opener closer : Token}
    (opens : opener.isPunct "(" = true) (closes : closer.isPunct ")" = true)
    (closed : fence.Closes) :
    Cursor.parameters ⟨opener :: (Stroke.tokens false offset (listed (formals.map strokes)) ++
        closer :: rest), fence⟩ =
      some (allSpans formals offset, ⟨rest, fence⟩) := by
  have inside : read .parameterTail
      ⟨Stroke.tokens false offset (listed (formals.map strokes)) ++ closer :: rest, fence⟩ = _ :=
    read_parameters formals offset closed closes
  have found : read .parameterList ⟨opener :: (Stroke.tokens false offset
      (listed (formals.map strokes)) ++ closer :: rest), fence⟩ =
        some (allSpans formals offset, ⟨rest, fence⟩) := by
    rw [read_eq closed, Expr.step, Expr.parameterList]
    simp [Cursor.expectPunct, Cursor.peek, Cursor.advance, opens, inside, closes]
  exact found

/-- The parts of a parameter have their texts. -/
theorem parameter_spans (reading : Reading) (formal : Formal)
    (stands : StandsAt reading.source offset (Stroke.written formal.strokes)) :
    reading.parameter (formal.spans offset) = formal.parameter := by
  rw [strokes, written_labelled] at stands
  have name : reading.text ⟨offset, offset + formal.name.text.toList.length⟩ = formal.name.text :=
    StandsAt.slice_text (stands.within [] (optionMark formal.optional ++
      WrittenType.typedText formal.type).toList (by simp) rfl)
  have type := WrittenType.map_text_typed reading formal.type (stands.within (formal.name.text ++
    optionMark formal.optional).toList [] (by simp) rfl)
  simp only [Reading.parameter, spans, typeAt, name, type, parameter, Option.map_none]

/-- The parts of parameters have their texts. -/
theorem map_parameter_allSpans (reading : Reading) (formals : List Formal) (offset : Nat)
    (stands : StandsAt reading.source offset (Stroke.written (listed (formals.map strokes)))) :
    (allSpans formals offset).map reading.parameter = formals.map parameter := by
  induction formals generalizing offset with
  | nil => rfl
  | cons formal others ih =>
    cases others with
    | nil => exact congrArg (· :: []) (parameter_spans reading formal stands)
    | cons next others =>
      have parts : Stroke.written (listed ((formal :: next :: others).map strokes)) =
          Stroke.written formal.strokes ++
            ([',', ' '] ++ Stroke.written (listed ((next :: others).map strokes))) := by
        simp [listed, Stroke.written_append]
      rw [parts] at stands
      have later := ih (offset + (Stroke.written formal.strokes).length + 2) stands.right.right
      rw [allSpans, List.map_cons, parameter_spans reading formal stands.left, later]
      rfl

end Formal

/-! ## Bodies -/

section Bodies

variable {after : List Char} {before newline : Bool} {offset : Nat} {rest : List Token}

/-- The line in the body of a function that nothing is known about but its parameters. -/
def bodyText : List Formal → String
  | first :: second :: _ => "return " ++ first.name.text ++ " + " ++ second.name.text ++ ";"
  | _ => placeholderBody

/-- The strokes of this line. -/
def bodyStrokes : List Formal → List Stroke
  | first :: second :: _ =>
    [word "return", space, word first.name.text, space, sign "+", space, word second.name.text,
      sign ";"]
  | _ => [.gap (.lineComment (placeholderBody.toList.drop 2))]

theorem written_body (formals : List Formal) :
    Stroke.written (bodyStrokes formals) = (bodyText formals).toList := by
  have comment : Stroke.written [.gap (.lineComment (placeholderBody.toList.drop 2))] =
      placeholderBody.toList := by decide
  match formals with
  | first :: second :: _ => simp [bodyStrokes, bodyText]
  | [] => exact comment
  | [_] => exact comment

theorem legible_body (formals : List Formal) :
    Legible ('\n' :: after) before (bodyStrokes formals) := by
  have comment : Legible ('\n' :: after) before
      [.gap (.lineComment (placeholderBody.toList.drop 2))] := by
    refine ⟨⟨by decide, fun c head => ?_⟩, trivial⟩
    exact (Option.some.inj head).symm
  match formals with
  | first :: second :: _ =>
    exact .word rfl rfl (.space (Stroke.solid_word first.name.isWhole) (.word first.name.isWhole rfl
      (.space rfl (.sign (by decide) (.inl (Lexer.chunk_cons_of_ends (by decide) _))
        (.space (Stroke.solid_word second.name.isWhole) (.word second.name.isWhole rfl
          (.single (by decide) trivial)))))))
  | [] => exact comment
  | [_] => exact comment

theorem paired_body (formals : List Formal) : Paired (bodyStrokes formals) := by
  match formals with
  | first :: second :: _ =>
    exact .plain rfl (.plain rfl (.plain rfl (.plain rfl (.plain rfl (.plain rfl (.plain rfl
      (.plain rfl .nil)))))))
  | [] => exact .plain rfl .nil
  | [_] => exact .plain rfl .nil

theorem solid_body (formals : List Formal) :
    (Stroke.written (bodyStrokes formals) ++ after).head?.any Lexer.isSpace = false := by
  match formals with
  | first :: second :: _ => rfl
  | [] => rfl
  | [_] => rfl

theorem unclosed_body (formals : List Formal) (later : Unclosed rest) :
    Unclosed (Stroke.tokens newline offset (bodyStrokes formals) ++ rest) := by
  match formals with
  | first :: second :: _ => exact .word (.word (.wall rfl rfl))
  | [] => exact later
  | [_] => exact later

theorem bodyText_cases (formals : List Formal) :
    (∃ first second : PlainName,
      bodyText formals = "return " ++ first.text ++ " + " ++ second.text ++ ";") ∨
    bodyText formals = placeholderBody := by
  match formals with
  | first :: second :: _ => exact .inl ⟨first.name, second.name, rfl⟩
  | [] => exact .inr rfl
  | [_] => exact .inr rfl

theorem ends_body (formals : List Formal) :
    (bodyText formals).toList.head?.all Text.isBlank = false ∧
      (bodyText formals).toList.getLast?.all Text.isBlank = false := by
  obtain ⟨first, second, same⟩ | same := bodyText_cases formals
  · rw [same]
    refine ⟨by simp; decide, ?_⟩
    rw [String.toList_append, List.getLast?_append_of_ne_nil _ (by decide)]
    decide
  · rw [same]
    decide

theorem inLine_body (formals : List Formal) : '\n' ∉ (bodyText formals).toList := by
  obtain ⟨first, second, same⟩ | same := bodyText_cases formals
  · have letters (name : PlainName) : '\n' ∉ name.text.toList := by
      intro inside
      exact absurd (List.all_eq_true.mp name.isAlphanum _ inside) (by decide)
    rw [same]
    simp [letters]
  · rw [same]
    decide

/-- The line is captured as it is. -/
theorem dedent?_body (formals : List Formal) (step : Nat) :
    Text.dedent? ('\n' :: (List.replicate step ' ' ++ (bodyText formals).toList ++ ['\n'])) =
      some (bodyText formals).toList := by
  have inLine : '\n' ∉ (bodyText formals).toList := inLine_body formals
  have single : Text.split '\n' (bodyText formals).toList = [(bodyText formals).toList] :=
    Text.split_of_inLine inLine
  obtain ⟨first, last⟩ := ends_body formals
  have form : Text.IsBody (bodyText formals).toList := by
    refine ⟨first, last, ?_⟩
    rw [Text.SolidEnds, single]
    intro line member c ends
    rw [List.mem_singleton.mp member] at ends
    rw [ends] at last
    exact last
  have again := Text.dedent?_moved form step
  rwa [Text.mapLines_of_inLine _ inLine, Text.moved_of_first first] at again

/-- The line is not that of a request. -/
theorem request?_body (formals : List Formal) (name : String) :
    Template.request? name (bodyText formals).toList = none := by
  have other : Template.after? "const response = await fetch(" (bodyText formals).toList =
      none := by
    obtain ⟨first, second, same⟩ | same := bodyText_cases formals
    · simp [Template.after?, same]
    · rw [same]
      decide
  rw [Template.request?, other]
  rfl

end Bodies

/-! ## Functions -/

/-- A function that nothing is known about but what stands in its first line. -/
structure FunctionForm where
  name : PlainName
  parameters : List Formal
  result : Option (WrittenType false)
  isAsync : Bool

namespace FunctionForm

/-- What is known about a function. -/
def attributes (form : FunctionForm) : FunctionAttributes :=
  { name := form.name.text, parameters := form.parameters.map Formal.parameter,
    returnType := form.result.map WrittenType.text, isAsync := form.isAsync }

/-- The body of a function, from its opening brace on. -/
def braces (step : Nat) (form : FunctionForm) : List Stroke :=
  sign "\x7b" :: lineBreak step :: (bodyStrokes form.parameters ++ [lineBreak 0, sign "\x7d"])

/-- The strokes of a function, from its word on. -/
def declared (step : Nat) (form : FunctionForm) : List Stroke :=
  word "function" :: space :: word form.name.text :: sign "(" ::
    (listed (form.parameters.map Formal.strokes) ++ sign ")" ::
      (WrittenType.typed form.result ++ space :: form.braces step))

/-- The strokes of a function. -/
def strokes (step : Nat) (form : FunctionForm) : List Stroke :=
  if form.isAsync then word "export" :: space :: word "async" :: space :: form.declared step
  else word "export" :: space :: form.declared step

variable {after : List Char} {before newline : Bool} {step offset : Nat} {rest : List Token}
  {fence token : Token}

/-- The text of a function. -/
def text (step : Nat) (form : FunctionForm) : String :=
  unlines [form.attributes.header, indented step 1 (bodyText form.parameters), "\x7d"]

/-- What is found out about a function. -/
def found (form : FunctionForm) : FunctionAttributes :=
  { form.attributes with body := some (bodyText form.parameters) }

/-- The body is made of the parameters. -/
theorem block_attributes (step : Nat) (form : FunctionForm) :
    form.attributes.block step [] = .ok (form.text step) := by
  have lines : form.attributes.bodyLines [] = .ok [bodyText form.parameters] := by
    obtain ⟨name, parameters, result, isAsync⟩ := form
    match parameters with
    | first :: second :: _ => rfl
    | [] => rfl
    | [_] => rfl
  rw [FunctionAttributes.block, lines]
  rfl

/-- The body is the one that is found, whatever lies below the function. -/
theorem block_found (step : Nat) (form : FunctionForm) (children : List Node) :
    form.found.block step children = .ok (form.text step) := by
  have filled : Text.isBlankText (bodyText form.parameters).toList = false := by
    have first := (ends_body form.parameters).1
    revert first
    cases (bodyText form.parameters).toList with
    | nil => exact nofun
    | cons c rest => exact fun first => by simp_all [Text.isBlankText]
  have single : Text.split '\n' (bodyText form.parameters).toList =
      [(bodyText form.parameters).toList] := Text.split_of_inLine (inLine_body form.parameters)
  have kept : (some (bodyText form.parameters)).filter
      (fun body => !Text.isBlankText body.toList) = some (bodyText form.parameters) := by
    simp [Option.filter, filled]
  have lines : form.found.bodyLines children = .ok [bodyText form.parameters] := by
    rw [FunctionAttributes.bodyLines, found, kept]
    simp [single]
  rw [FunctionAttributes.block, lines]
  rfl

/-- The first line of a function, part by part. -/
theorem header_attributes (form : FunctionForm) : form.attributes.header =
    "export " ++ (if form.isAsync then "async " else "") ++ "function " ++ form.name.text ++ "(" ++
      ", ".intercalate ((form.parameters.map Formal.parameter).map Parameter.render) ++ ")" ++
        WrittenType.typedText form.result ++ " \x7b" := by
  obtain ⟨name, parameters, result, isAsync⟩ := form
  cases result with
  | none => rfl
  | some type =>
    unfold FunctionAttributes.header
    simp only [attributes, Option.map_some, Text.given?_some type.text_ne, WrittenType.typedText]
    rfl

theorem written_strokes (step : Nat) (form : FunctionForm) :
    Stroke.written (form.strokes step) = (form.text step).toList := by
  have parameters : Stroke.written (listed (form.parameters.map Formal.strokes)) =
      (", ".intercalate ((form.parameters.map Formal.parameter).map Parameter.render)).toList := by
    simp [Stroke.written_listed, String.toList_intercalate, Function.comp_def,
      Formal.written_strokes]
  have line : (indented step 1 (bodyText form.parameters)).toList =
      List.replicate step ' ' ++ (bodyText form.parameters).toList := by
    have filled : bodyText form.parameters ≠ "" := by
      intro none
      have first := (ends_body form.parameters).1
      rw [none] at first
      cases first
    rw [indented, if_neg filled, String.toList_append, String.toList_ofList, Nat.one_mul]
  rw [text, toList_unlines, header_attributes]
  have behind : Stroke.written (form.declared step) = "function ".toList ++
      (form.name.text.toList ++ "(".toList ++ (", ".intercalate
        ((form.parameters.map Formal.parameter).map Parameter.render)).toList ++ ")".toList ++
          (WrittenType.typedText form.result).toList ++ " \x7b".toList ++
            ('\n' :: (indented step 1 (bodyText form.parameters)).toList) ++ "\n\x7d".toList) := by
    rw [line]
    simp [declared, braces, Stroke.written_append, parameters, written_body,
      WrittenType.written_typed]
  cases same : form.isAsync <;> simp [strokes, same, behind]

/-- The strokes of a function are a phrase from its word on. -/
theorem phrase_declared (step : Nat) (form : FunctionForm) : Phrase (form.declared step) := by
  have braces {after : List Char} {before : Bool} : Legible after before (form.braces step) := by
    refine .single (by decide) (.lineBreak ?_ (Stroke.legible_append.mpr
      ⟨legible_body form.parameters, .lineBreak rfl (.single (by decide) trivial)⟩))
    rw [Stroke.written_append, List.append_assoc]
    exact solid_body form.parameters
  have paired : Paired (form.braces step) := by
    have inside : Paired (lineBreak step :: (bodyStrokes form.parameters ++ [lineBreak 0])) :=
      .plain rfl ((paired_body form.parameters).append (.plain rfl .nil))
    have whole : Paired (sign "\x7b" :: ((lineBreak step :: (bodyStrokes form.parameters ++
        [lineBreak 0])) ++ [sign "\x7d"])) := .pair (by decide) inside .nil
    rwa [List.cons_append, List.append_assoc] at whole
  have breaks : Stroke.breaks false (form.braces step) = false :=
    (Stroke.breaks_append true (bodyStrokes form.parameters) [lineBreak 0, sign "\x7d"]).trans rfl
  have parameters := Stroke.paired_listed Formal.phrase form.parameters
  refine ⟨fun {after before} ends => ?_, ⟨'f', _, rfl, rfl⟩, ?_, fun newline => ?_⟩
  · have behind : Lexer.chunk (Stroke.written (space :: form.braces step) ++ after) = [] :=
      Lexer.chunk_cons_of_ends (by decide) _
    have closer : Lexer.chunk (Stroke.written (sign ")" :: (WrittenType.typed form.result ++
        space :: form.braces step)) ++ after) = [] := Lexer.chunk_cons_of_ends (by decide) _
    refine .word rfl rfl (.space (Stroke.solid_word form.name.isWhole) (.word form.name.isWhole rfl
      (.single (by decide) (Stroke.legible_append.mpr
        ⟨Stroke.legible_listed Formal.phrase form.parameters closer,
          .single (by decide) (Stroke.legible_append.mpr
            ⟨WrittenType.legible_typed form.result behind, .space rfl braces⟩)⟩))))
  · exact .plain rfl (.plain rfl (.plain rfl (.pair (by decide) parameters
      ((WrittenType.paired_typed form.result).append (.plain rfl paired)))))
  · refine (Stroke.breaks_append false (listed (form.parameters.map Formal.strokes)) _).trans ?_
    refine (Stroke.breaks_append false (WrittenType.typed form.result) _).trans ?_
    rw [WrittenType.breaks_typed]
    exact breaks

theorem phrase (step : Nat) (form : FunctionForm) : Phrase (form.strokes step) := by
  have declared := form.phrase_declared step
  rw [strokes]
  split
  · exact ⟨fun ends => .word rfl rfl (.space rfl (.word rfl rfl
        (.space (declared.head _) (declared.legible ends)))), ⟨'e', _, rfl, rfl⟩,
      .plain rfl (.plain rfl (.plain rfl (.plain rfl declared.paired))),
      fun _ => declared.unbroken false⟩
  · exact ⟨fun ends => .word rfl rfl (.space (declared.head _) (declared.legible ends)),
      ⟨'e', _, rfl, rfl⟩, .plain rfl (.plain rfl declared.paired),
      fun _ => declared.unbroken false⟩

theorem unclosed (form : FunctionForm) (later : Unclosed rest) :
    Unclosed (Stroke.tokens newline offset (form.strokes step) ++ rest) := by
  have braces {newline : Bool} {offset : Nat} :
      Unclosed (Stroke.tokens newline offset (form.braces step) ++ rest) := by
    rw [braces, Stroke.tokens, tokens_lineBreak, Stroke.tokens_append, List.cons_append,
      List.append_assoc]
    exact .cons (.inr rfl) (unclosed_body form.parameters (.cons (.inr rfl) later))
  have declared {newline : Bool} {offset : Nat} :
      Unclosed (Stroke.tokens newline offset (form.declared step) ++ rest) := by
    simp only [declared, Stroke.tokens, Stroke.tokens_space, Stroke.tokens_append, List.cons_append,
      List.append_assoc]
    exact .word (.word (.cons (.inr rfl) (.listed Formal.unclosed form.parameters
      (.cons (.inr rfl) (WrittenType.unclosed_typed form.result braces)))))
  rw [strokes]
  split
  · exact .word (.word declared)
  · exact .word declared

/-- What is read of a function, part by part. -/
theorem functionStatement_of_parts (reading : Reading) (start : Nat) {cursor : Cursor}
    {named opener brace closer : Token} {tokens behind inner : List Token} {body : String}
    {spans : List ParameterSpans} {type : Option Span}
    (words : (if cursor.peek.isWord "async" then cursor.advance else cursor).advance =
      ⟨named :: opener :: tokens, fence⟩)
    (identifies : named.kind = .identifier) (opens : opener.isPunct "<" = false)
    (parameters : Cursor.parameters ⟨opener :: tokens, fence⟩ = some (spans, ⟨behind, fence⟩))
    (result : Cursor.resultType ⟨behind, fence⟩ [";"] =
      some (type, ⟨brace :: (inner ++ closer :: rest), fence⟩))
    (braces : brace.isPunct "\x7b" = true) (balanced : Lexer.Balanced inner)
    (closes : closer.isCloser = true)
    (captured : Text.dedent? (reading.text ⟨brace.stop, closer.start⟩).toList = some body.toList)
    (other : Template.request? named.value body.toList = none) :
    ∃ children, reading.functionStatement start cursor =
      some ([.mk (.functionDecl
        { name := named.value, parameters := spans.map reading.parameter,
          returnType := type.map reading.text, isAsync := cursor.peek.isWord "async",
          body := some body }) ⟨start, closer.stop⟩ children], ⟨rest, fence⟩) := by
  have enclosed := balanced.enclosed?_closer closes rest
  have first : (⟨named :: opener :: tokens, fence⟩ : Cursor).expectIdentifier =
      some (named, ⟨opener :: tokens, fence⟩) := if_pos identifies
  have plain : Extent.typeParameters ⟨opener :: tokens, fence⟩ = some ⟨opener :: tokens, fence⟩ :=
    if_neg (Bool.eq_false_iff.mp opens)
  have braced : (⟨brace :: (inner ++ closer :: rest), fence⟩ : Cursor).expectPunct "\x7b" =
      some (brace, ⟨inner ++ closer :: rest, fence⟩) := if_pos braces
  have request (isAsync : Bool) (parameters : List Parameter) :
      reading.request? named.value isAsync parameters (some body) = none := by
    simp [Reading.request?, other]
  refine ⟨StatementReader.all reading.bodyStatement inner.length ⟨inner, closer⟩, ?_⟩
  simp [Reading.functionStatement, words, first, plain, parameters, result, braced, enclosed,
    captured, request, Cursor.move]

/-- What is written of a function from its word on, part by part. -/
theorem written_declared (step : Nat) (form : FunctionForm) :
    Stroke.written (form.declared step) = ("function ".toList ++ form.name.text.toList ++ ['(']) ++
      (Stroke.written (listed (form.parameters.map Formal.strokes)) ++ ([')'] ++
        ((WrittenType.typedText form.result).toList ++ ([' ', '\x7b'] ++
          (('\n' :: (List.replicate step ' ' ++ (bodyText form.parameters).toList ++ ['\n'])) ++
            ['\x7d']))))) := by
  simp [declared, braces, Stroke.written_append, written_body, WrittenType.written_typed]

/-- A function is read from its word on. -/
theorem exists_functionStatement (reading : Reading) (form : FunctionForm) {cursor : Cursor}
    (start : Nat) (closed : fence.Closes)
    (words : (if cursor.peek.isWord "async" then cursor.advance else cursor) =
      ⟨Stroke.tokens false offset (form.declared step) ++ rest, fence⟩)
    (async : cursor.peek.isWord "async" = form.isAsync)
    (stands : StandsAt reading.source offset (Stroke.written (form.declared step))) :
    ∃ children, reading.functionStatement start cursor =
      some ([.mk (.functionDecl form.found)
        ⟨start, offset + (Stroke.written (form.declared step)).length⟩ children],
        ⟨rest, fence⟩) := by
  obtain ⟨first, pastName⟩ : ∃ first, first = offset + 9 + form.name.text.toList.length + 1 :=
    ⟨_, rfl⟩
  obtain ⟨second, pastParameters⟩ : ∃ second, second = first +
    (Stroke.written (listed (form.parameters.map Formal.strokes))).length + 1 := ⟨_, rfl⟩
  obtain ⟨mark, pastResult⟩ : ∃ mark, mark = second +
    (WrittenType.typedText form.result).toList.length + 1 := ⟨_, rfl⟩
  obtain ⟨stop, pastBody⟩ : ∃ stop, stop = mark + 1 + (step + 1) +
    (bodyText form.parameters).toList.length + 1 := ⟨_, rfl⟩
  let named : Token := ⟨.identifier, form.name.text, ⟨offset + 9, first - 1⟩, false⟩
  let opener : Token := ⟨.punctuator, "(", ⟨first - 1, first⟩, false⟩
  let closer : Token := ⟨.punctuator, ")", ⟨second - 1, second⟩, false⟩
  let brace : Token := ⟨.punctuator, "\x7b", ⟨mark, mark + 1⟩, false⟩
  let inner := Stroke.tokens true (mark + 1 + (step + 1)) (bodyStrokes form.parameters)
  let brace' : Token := ⟨.punctuator, "\x7d", ⟨stop, stop + 1⟩, true⟩
  have parts : Stroke.tokens false offset (form.declared step) ++ rest =
      ⟨.identifier, "function", ⟨offset, offset + 8⟩, false⟩ :: named :: opener ::
        (Stroke.tokens false first (listed (form.parameters.map Formal.strokes)) ++ closer ::
          (Stroke.tokens false second (WrittenType.typed form.result) ++ brace ::
            (inner ++ brace' :: rest))) := by
    have breaks := Stroke.breaks_listed Formal.phrase form.parameters
    simp only [declared, braces, Stroke.tokens, Stroke.tokens_space, Stroke.tokens_append,
      tokens_lineBreak, breaks, WrittenType.breaks_typed, WrittenType.written_typed, written_body,
      List.cons_append, List.append_assoc]
    subst pastName pastParameters pastResult pastBody
    rfl
  have whole := written_declared step form
  have length := congrArg List.length whole
  simp only [List.length_append] at length
  rw [whole] at stands
  have parametersStand : StandsAt reading.source first
      (Stroke.written (listed (form.parameters.map Formal.strokes))) :=
    stands.within _ _ rfl (by simp [pastName]; omega)
  have resultStand : StandsAt reading.source second (WrittenType.typedText form.result).toList :=
    stands.right.right.right.left.moved (by simp [pastName, pastParameters]; omega)
  have bodyStands := stands.right.right.right.right.right.left
  have parameters : Cursor.parameters ⟨opener :: (Stroke.tokens false first
      (listed (form.parameters.map Formal.strokes)) ++ closer :: (Stroke.tokens false second
        (WrittenType.typed form.result) ++ brace :: (inner ++ brace' :: rest))), fence⟩ = _ :=
    Formal.parameters_listed form.parameters rfl rfl closed
  have result : Cursor.resultType ⟨Stroke.tokens false second (WrittenType.typed form.result) ++
      brace :: (inner ++ brace' :: rest), fence⟩ [";"] = _ :=
    WrittenType.read_typed form.result (by decide)
      (fun last complete => by simp [Extent.TypeEnd.endsBefore, complete, brace, Token.isPunct]) rfl
      second
  have resultText : (form.result.map fun type => (⟨second + 2, second + 2 +
      type.text.toList.length⟩ : Span)).map reading.text = form.result.map WrittenType.text :=
    WrittenType.map_text_typed reading form.result resultStand
  have captured : Text.dedent? (reading.text ⟨brace.stop, brace'.start⟩).toList =
      some (bodyText form.parameters).toList := by
    have slice := (bodyStands.moved (show _ = mark + 1 by
      simp [pastName, pastParameters, pastResult]
      omega)).slice
    have place : mark + 1 + ('\n' :: (List.replicate step ' ' ++
        (bodyText form.parameters).toList ++ ['\n'])).length = stop := by
      simp [pastBody]
      omega
    rw [place] at slice
    rw [show reading.text ⟨brace.stop, brace'.start⟩ = _ from slice, String.toList_ofList]
    exact dedent?_body form.parameters step
  have behind : (if cursor.peek.isWord "async" then cursor.advance else cursor).advance =
      ⟨named :: opener :: (Stroke.tokens false first
        (listed (form.parameters.map Formal.strokes)) ++ closer :: (Stroke.tokens false second
          (WrittenType.typed form.result) ++ brace :: (inner ++ brace' :: rest))), fence⟩ := by
    rw [words, parts]
    rfl
  obtain ⟨children, read⟩ := functionStatement_of_parts reading start behind rfl rfl parameters
    result rfl ((paired_body form.parameters).balanced _ _) rfl captured (request?_body _ _)
  have last : stop + 1 = offset + (Stroke.written (form.declared step)).length := by
    simp [length, pastName, pastParameters, pastResult, pastBody]
    omega
  refine ⟨children, read.trans ?_⟩
  rw [← last, Formal.map_parameter_allSpans reading form.parameters first parametersStand,
    resultText, async]
  rfl

/-- **A function is found** as such, with the text of its body. -/
theorem statement (step : Nat) (form : FunctionForm) :
    Stroke.Statement (form.strokes step) (.functionDecl form.found) := by
  refine ⟨form.phrase step, form.unclosed,
    fun {reading newline offset rest fence} _ closed _ stands => ?_⟩
  let exported : Token := ⟨.identifier, "export", ⟨offset, offset + 6⟩, newline⟩
  cases same : form.isAsync with
  | false =>
    have parts : form.strokes step = word "export" :: space :: form.declared step := by
      simp [strokes, same]
    have tokens : Stroke.tokens newline offset (form.strokes step) ++ rest =
        exported :: (Stroke.tokens false (offset + 7) (form.declared step) ++ rest) := by
      rw [parts]
      rfl
    have behind : StandsAt reading.source (offset + 7) (Stroke.written (form.declared step)) := by
      rw [parts] at stands
      exact stands.within "export ".toList [] (by simp) rfl
    obtain ⟨children, read⟩ := @exists_functionStatement step (offset + 7) rest fence reading form
      ⟨Stroke.tokens false (offset + 7) (form.declared step) ++ rest, fence⟩ offset closed rfl
      same.symm behind
    refine ⟨⟨offset, offset + 7 + (Stroke.written (form.declared step)).length⟩, children, ?_, rfl,
      ?_⟩
    · rw [tokens, reading.topStatement_export rfl]
      exact read
    · simp [parts]
      omega
  | true =>
    have parts : form.strokes step =
        word "export" :: space :: word "async" :: space :: form.declared step := by
      simp [strokes, same]
    let async : Token := ⟨.identifier, "async", ⟨offset + 7, offset + 12⟩, false⟩
    have tokens : Stroke.tokens newline offset (form.strokes step) ++ rest =
        exported :: async :: (Stroke.tokens false (offset + 13) (form.declared step) ++ rest) := by
      rw [parts]
      rfl
    have behind : StandsAt reading.source (offset + 13) (Stroke.written (form.declared step)) := by
      rw [parts] at stands
      exact stands.within "export async ".toList [] (by simp) rfl
    obtain ⟨children, read⟩ := @exists_functionStatement step (offset + 13) rest fence reading form
      ⟨async :: (Stroke.tokens false (offset + 13) (form.declared step) ++ rest), fence⟩ offset
      closed rfl same.symm behind
    refine ⟨⟨offset, offset + 13 + (Stroke.written (form.declared step)).length⟩, children, ?_, rfl,
      ?_⟩
    · rw [tokens, reading.topStatement_export rfl]
      exact read
    · simp [parts]
      omega

end FunctionForm

end SourceCanvas
