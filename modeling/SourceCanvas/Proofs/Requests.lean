import SourceCanvas.Proofs.Brackets
import SourceCanvas.Proofs.Outlines
import SourceCanvas.Proofs.Passages
import SourceCanvas.Proofs.RequestMargins
import SourceCanvas.Program.Render

/-!
# Requests

What is written for a request is one function, whose tokens come out as they were meant: a string
is written with escapes, the body has tokens of its own, and the rest is fixed
(`Template.completes_requestLines`). So between its braces stands what the template was filled in
with, and the request is read back if and only if its body survives the margins
(`readsBack_request_iff`).
-/

namespace SourceCanvas

open SourceCanvas.Lexer
open SourceCanvas.Lexer.Completes (divided)

variable {text after : List Char} {allowed : Bool} {opened : List (TokenKind × String)}

/-! ## Tokens -/

/-- Escapes keep a quoted text open, up to its last quote. -/
theorem fills_of_escaped (escaped : Json.Escaped text) : Fills [.quoted '"'] (text ++ ['"']) := by
  induction escaped with
  | ended => exact .quotedEnd (by decide) .done
  | plain quote solidus inLine _ ih => exact .quotedChar solidus quote inLine ih
  | escape inLine _ ih => exact .quotedEscape _ ih

/-- A text that is written with escapes is read as one string. -/
theorem reads_renderChars (previous : Option Token) (text : List Char) :
    Reads previous false 0 (Json.renderChars text)
      [⟨.string, String.ofList (Json.renderChars text),
        ⟨0, (Json.renderChars text).length⟩, false⟩] (.ok false) := by
  have fills := fills_of_escaped (Json.escaped_flatMap text)
  have parts : Json.renderChars text = '"' :: (text.flatMap Json.renderChar ++ ['"']) := by
    rw [← Json.renderChars_append, List.append_nil]
  have bare : Bare '"' (text.flatMap Json.renderChar ++ ['"']) :=
    bare_of_ne (by decide) (by decide)
  have encloses : (Frame.quoted '"' 0).enclosure = .quoted '"' := rfl
  rw [← encloses] at fills
  have whole := fills.framed .string 0 []
  rw [List.append_nil] at whole
  have found : piece previous 0 '"' (text.flatMap Json.renderChar ++ ['"']) =
      .ok (.lexeme (Json.renderChars text).length .string) := by
    rw [bare.piece, parts]
    exact whole
  rw [parts] at found ⊢
  have read := @Reads.lexeme previous false 0 '"' _ _ [] .string [] (.ok false)
    (List.append_nil _).symm found .ended
  rwa [Nat.zero_add] at read

namespace Lexer.Completes

/-- A string is read in front of what completes it. -/
theorem string (text : List Char) (ends : (after ++ ['\x7d']).head?.all endsChunk = true)
    (later : Completes false opened after) :
    Completes allowed opened (Json.renderChars text ++ after) := by
  obtain ⟨previous, rfl⟩ := exists_regexAllowed allowed
  refine .passage (reads_renderChars previous text) rfl (Nat.zero_add _).symm
    ends (.inr ⟨nofun, trivial⟩) ?_ later
  rw [openBrackets.eq_def]
  exact congrArg Except.ok (map_lexeme_spoken opened)

/-- A space is passed over. -/
theorem space (later : Completes allowed opened text) (solid : text.head?.any isSpace = false) :
    Completes allowed opened ([' '] ++ text) :=
  later.blanks (List.cons_ne_nil _ _) (List.forall_mem_singleton.mpr (by decide)) solid

/-- A line starts with its margin. -/
theorem line (step level : Nat) (solid : text.head?.any isSpace = false)
    (later : Completes allowed opened text) :
    Completes allowed opened ('\n' :: (Template.stepped step level ++ text)) := by
  have spaces : ∀ c ∈ '\n' :: Template.stepped step level, isSpace c = true := by
    refine List.forall_mem_cons.mpr ⟨by decide, fun c member => ?_⟩
    rw [List.eq_of_mem_replicate member]
    decide
  exact later.blanks (List.cons_ne_nil _ _) spaces solid

end Lexer.Completes

/-- A text that has tokens, and starts and ends with one. -/
def Bounded (text : String) : Prop :=
  ∃ tokens ∈ (tokenize text).toOption, tokens.dropLast.head?.map Token.start = some 0 ∧
    tokens.dropLast.getLast?.map Token.stop = some text.length

instance (text : String) : Decidable (Bounded text) := inferInstanceAs (Decidable (∃ _ ∈ _, _))

theorem Bounded.reads {text : String} (bounded : Bounded text) : ∃ tokens last newline,
    Reads none false 0 text.toList tokens (.ok newline) ∧ openBrackets [] tokens = .ok [] ∧
      tokens.getLast? = some last ∧ last.stop = text.length ∧
      ∃ c rest, text.toList = c :: rest ∧ isSpace c = false ∧ Text.isBlank c = false := by
  obtain ⟨tokens, found, start, stop⟩ := bounded
  cases tokenized : tokenize text with
  | error error =>
    rw [tokenized] at found
    cases found
  | ok tokens' =>
    rw [tokenized] at found
    obtain rfl : tokens' = tokens := Option.some.inj found
    obtain ⟨before, newline, rfl, reads, matched⟩ := reads_of_tokenize tokenized
    rw [List.dropLast_concat] at start stop
    obtain ⟨last, ends, place⟩ := Option.map_eq_some_iff.mp stop
    exact ⟨before, last, newline, reads, matched, ends, place, reads.solid start⟩

namespace Template

variable {request : ApiAttributes}

/-- The brackets that are open between the options of a request. -/
def inOptions : List (TokenKind × String) := [(.punctuator, "\x7b"), (.punctuator, "(")]

/-- The brackets that are open between the headers of a request. -/
def inHeaders : List (TokenKind × String) := (.punctuator, "\x7b") :: inOptions

/-- A header is read in front of what completes it. -/
theorem completes_entry (entry : String × String)
    (ends : (after ++ ['\x7d']).head?.all endsChunk = true)
    (later : Completes false inHeaders after) :
    Completes allowed inHeaders (Json.entryChars entry ++ after) := by
  have parts : Json.entryChars entry ++ after = Json.renderChars entry.1.toList ++
      (":".toList ++ ([' '] ++ (Json.renderChars entry.2.toList ++ after))) := by
    simp [Json.entryChars]
  rw [parts]
  refine .string _ rfl (.fixed divided true inHeaders (by decide +kernel) rfl rfl ?_)
  exact .space (.string _ ends later) rfl

/-- Headers are read in front of the brace that closes them. -/
theorem completes_entries (later : ∀ allowed, Completes allowed inHeaders ('\x7d' :: after)) :
    (entries : List (String × String)) → (allowed : Bool) →
      Completes allowed inHeaders (Json.entriesChars entries ++ '\x7d' :: after)
  | [], allowed => later allowed
  | [entry], allowed => completes_entry entry rfl (later false)
  | entry :: next :: others, allowed => by
    have parts : Json.entriesChars (entry :: next :: others) ++ '\x7d' :: after =
        Json.entryChars entry ++ (",".toList ++ ([' '] ++
          (Json.entriesChars (next :: others) ++ '\x7d' :: after))) := by
      simp [Json.entriesChars]
    have solid : (Json.entriesChars (next :: others) ++ '\x7d' :: after).head?.any isSpace =
        false := by
      cases others <;> rfl
    rw [parts]
    refine completes_entry entry rfl (.fixed divided true inHeaders (by decide +kernel) rfl rfl ?_)
    exact .space (completes_entries later (next :: others) true) solid

/-- The lines behind the options close them. -/
theorem completes_closingLines (step : Nat) :
    Completes true inOptions ('\n' :: (margined (stepped step) closingLines ++ ['\n'])) := by
  have parts : '\n' :: (margined (stepped step) closingLines ++ ['\n']) =
      '\n' :: (stepped step 1 ++ ("\x7d);".toList ++
        '\n' :: (stepped step 1 ++ ("if (!response.ok) \x7b".toList ++
        '\n' :: (stepped step 2 ++
          ("throw new Error(`Request failed with status $\x7bresponse.status\x7d`);".toList ++
        '\n' :: (stepped step 1 ++ ("\x7d".toList ++
        '\n' :: (stepped step 1 ++ ("return response.json();".toList ++
        '\n' :: (stepped step 0 ++ []))))))))))) := by
    simp [margined, placed, closingLines, Text.join, stepped]
  rw [parts]
  refine .line step 1 rfl (.fixed none true [] (by decide +kernel) rfl rfl ?_)
  refine .line step 1 rfl (.fixed none true [(.punctuator, "\x7b")] (by decide +kernel) rfl rfl ?_)
  refine .line step 2 rfl
    (.fixed none true [(.punctuator, "\x7b")] (by decide +kernel) rfl rfl ?_)
  refine .line step 1 rfl (.fixed none false [] (by decide +kernel) rfl rfl ?_)
  refine .line step 1 rfl (.fixed divided true [] (by decide +kernel) rfl rfl ?_)
  exact .line step 0 rfl .nil

/-- The body is read in front of what closes the options. -/
theorem completes_endText (bounded : ∀ body ∈ request.body, Bounded body) (step : Nat) :
    Completes true inOptions ('\n' :: (endText (stepped step) request.body ++ ['\n'])) := by
  have closing := completes_closingLines step
  cases given : request.body with
  | none => exact closing
  | some body =>
    obtain ⟨tokens, last, newline, reads, matched, found, place, solid⟩ :=
      (bounded body given).reads
    have parts : '\n' :: (endText (stepped step) (some body) ++ ['\n']) =
        '\n' :: (stepped step 2 ++ ("body:".toList ++ ([' '] ++ (body.toList ++ (",".toList ++
          '\n' :: (margined (stepped step) closingLines ++ ['\n'])))))) := by
      simp [endText, bodyLine]
    have comma (allowed : Bool) : Completes allowed inOptions (",".toList ++
        '\n' :: (margined (stepped step) closingLines ++ ['\n'])) :=
      .anywhere inOptions (by decide +kernel) rfl closing allowed
    rw [parts]
    refine .line step 2 rfl (.fixed none true inOptions (by decide +kernel) rfl rfl ?_)
    refine .space ?_ ?_
    · refine .passage reads found (by rw [place, Nat.zero_add]; rfl) rfl (.inl ?_) ?_
        (comma _)
      · intro inClass
        cases inClass <;> exact ⟨rfl, rfl⟩
      · have under := openBrackets_under matched (inOptions.map spoken)
        rw [List.nil_append] at under
        exact congrArg (Except.map (List.map Token.lexeme)) under
    · obtain ⟨c, rest, same, space, -⟩ := solid
      rw [same]
      exact space

/-- **The lines of a request** are read up to the brace that closes them. -/
theorem completes_requestLines (bounded : ∀ body ∈ request.body, Bounded body) (step : Nat) :
    Completes true [] ('\n' :: (margined (stepped step) (requestLines request) ++ ['\n'])) := by
  have parts : '\n' :: (margined (stepped step) (requestLines request) ++ ['\n']) =
      '\n' :: (stepped step 1 ++ ("const response = await fetch(".toList ++
        (Json.renderChars request.endpoint.toList ++ (", \x7b".toList ++
        '\n' :: (stepped step 2 ++ ("method:".toList ++ ([' '] ++
          (Json.renderChars request.method.toList ++ (",".toList ++
        '\n' :: (stepped step 2 ++ ("headers:".toList ++ ([' '] ++ ("\x7b".toList ++
          (Json.entriesChars request.headers ++ ("\x7d,".toList ++
        '\n' :: (endText (stepped step) request.body ++ ['\n'])))))))))))))))) := by
    simp [margined_requestLines]
  have behind := completes_endText bounded step
  have closed (allowed : Bool) : Completes allowed inHeaders ("\x7d,".toList ++
      '\n' :: (endText (stepped step) request.body ++ ['\n'])) :=
    .anywhere inOptions (by decide +kernel) rfl behind allowed
  have headers := completes_entries closed request.headers true
  rw [parts]
  refine .line step 1 rfl
    (.fixed none true [(.punctuator, "(")] (by decide +kernel) rfl rfl ?_)
  refine .string _ rfl (.fixed divided true inOptions (by decide +kernel) rfl rfl ?_)
  refine .line step 2 rfl (.fixed none true inOptions (by decide +kernel) rfl rfl ?_)
  refine .space (.string _ rfl ?_) rfl
  refine .fixed divided true inOptions (by decide +kernel) rfl rfl ?_
  refine .line step 2 rfl (.fixed none true inOptions (by decide +kernel) rfl rfl ?_)
  refine .space (.fixed none true inHeaders (by decide +kernel) rfl ?_ headers) rfl
  rcases request.headers with _ | ⟨entry, _ | ⟨next, others⟩⟩ <;> rfl

/-! ## Texts -/

theorem toList_indented {line : String} (filled : line ≠ "") (step level : Nat) :
    (indented step level line).toList = stepped step level ++ line.toList := by
  rw [indented, if_neg filled, String.toList_append, String.toList_ofList, stepped]

/-- No line of a request is empty. -/
theorem filled_requestLines (request : ApiAttributes) :
    ∀ line ∈ requestLines request, line.2 ≠ "" := by
  have heads : ∀ line ∈ headLines request, line.2 ≠ "" := by
    simp [headLines]
  have closing : ∀ line ∈ closingLines, line.2 ≠ "" := by decide
  intro line member
  rw [requestLines, List.mem_append, List.mem_append] at member
  rcases member with member | member | member
  · exact heads line member
  · obtain ⟨body, -, rfl⟩ : ∃ body ∈ request.body, (2, bodyLine body) = line := by
      simpa using member
    simp [bodyLine]
  · exact closing line member

end Template

/-- An empty list of parameters is read. -/
theorem Cursor.parameters_nil {opener closer : Token} (opens : opener.isPunct "(" = true)
    (closes : closer.isPunct ")" = true) (rest : List Token) (fence : Token) :
    Cursor.parameters ⟨opener :: closer :: rest, fence⟩ = some ([], ⟨rest, fence⟩) := by
  have fuel : Cursor.fuel ⟨opener :: closer :: rest, fence⟩ = 20 * rest.length + 78 + 2 := by
    rw [Cursor.fuel, Cursor.size, List.length_cons, List.length_cons]
    omega
  have opened : Cursor.expectPunct ⟨opener :: closer :: rest, fence⟩ "(" =
      some (opener, ⟨closer :: rest, fence⟩) := if_pos opens
  have tail : Expr.readers (20 * rest.length + 78 + 1) .parameterTail ⟨closer :: rest, fence⟩ =
      some ([], ⟨closer :: rest, fence⟩) := if_pos closes
  have closed : Cursor.expectPunct ⟨closer :: rest, fence⟩ ")" = some (closer, ⟨rest, fence⟩) :=
    if_pos closes
  rw [Cursor.parameters, fuel, Expr.readers, descend]
  show Expr.parameterList (Expr.readers (20 * rest.length + 78 + 1)) _ = _
  simp only [Expr.parameterList, opened, tail, closed, Option.bind_eq_bind, Option.bind_some]

/-- The tokens before the body of a request. -/
def requestHead (name : String) : List Token :=
  [.inLine .identifier "export" 0, .inLine .identifier "async" 7, .inLine .identifier "function" 13,
    .inLine .identifier name 22, .inLine .punctuator "(" (22 + name.length),
    .inLine .punctuator ")" (23 + name.length), .inLine .punctuator "\x7b" (25 + name.length)]

/-- A request whose parts can be told apart in a text. -/
structure ApiAttributes.Writable (api : ApiAttributes) : Prop where
  named : isWhole api.name.toList = true
  filled : api.method ≠ ""
  capital : ∀ c ∈ api.method.toList, 'A' ≤ c ∧ c ≤ 'Z'
  apart : (api.headers.map Prod.fst).Nodup
  bounded : ∀ body ∈ api.body, Bounded body

namespace ApiAttributes

open Template

variable {api : ApiAttributes}

/-- What is written between the braces of a request. -/
def inside (api : ApiAttributes) (step : Nat) : List Char :=
  '\n' :: (margined (stepped step) (requestLines api) ++ ['\n'])

/-- Under names that are apart all headers are kept. -/
theorem ofList_headers {headers : List (String × String)} (apart : (headers.map Prod.fst).Nodup) :
    Catalog.ofList (headers.map fun (key, value) => (key, Json.string value)) =
      headers.map Json.textField := by
  have names : Catalog.names (headers.map Json.textField) = headers.map Prod.fst := by
    simp [Catalog.names, Json.textField]
  exact Catalog.ofList_of_nodup (names ▸ apart)

theorem Writable.block_eq (writable : api.Writable) (step : Nat) : api.block step =
    unlines (("export async function " ++ api.name ++ "() \x7b") ::
      ((requestLines api).map fun line => indented step line.1 line.2) ++ ["\x7d"]) := by
  have named : api.name ≠ "" := by
    intro empty
    have named := writable.named
    rw [empty] at named
    cases named
  have given : Text.given? api.body = api.body := by
    cases body : api.body with
    | none => rfl
    | some text =>
      obtain ⟨-, -, -, -, -, -, -, c, rest, same, -⟩ := (writable.bounded text body).reads
      have filled : text ≠ "" := fun empty => by simp [empty] at same
      exact if_neg filled
  rw [ApiAttributes.block, ofList_headers writable.apart, given, orElse, if_neg named, orElse,
    if_neg writable.filled]
  cases body : api.body <;> simp only [requestLines, body] <;> rfl

theorem Writable.toList_block (writable : api.Writable) (step : Nat) : (api.block step).toList =
    "export async function ".toList ++ (api.name.toList ++ ("() \x7b".toList ++
      (api.inside step ++ ['\x7d']))) := by
  have placed : ((requestLines api).map fun line => indented step line.1 line.2).map String.toList =
      placed (stepped step) (requestLines api) := by
    rw [List.map_map]
    exact List.map_congr_left fun line member =>
      toList_indented (filled_requestLines api line member) step line.1
  have filled : Template.placed (stepped step) (requestLines api) ≠ [] := by
    simp [Template.placed, requestLines, headLines]
  have last : [['\x7d']] ≠ [] := List.cons_ne_nil _ _
  rw [writable.block_eq step, unlines, String.toList_intercalate, List.map_append, List.map_cons,
    placed]
  have join := Text.join_eq_intercalate '\n'
    (("export async function " ++ api.name ++ "() \x7b").toList ::
      Template.placed (stepped step) (requestLines api) ++ [['\x7d']])
  refine join.symm.trans ?_
  rw [List.cons_append, Text.join_cons (List.append_ne_nil_of_left_ne_nil filled _),
    Text.join_append_lines filled last]
  simp [inside, margined, Text.join]

/-- The brace that closes a request. -/
def closing (api : ApiAttributes) (step : Nat) (newline : Bool) : Token :=
  let place := 26 + api.name.length + (api.inside step).length
  ⟨.punctuator, "\x7d", ⟨place, place + 1⟩, newline⟩

theorem Writable.reads_block (writable : api.Writable) (step : Nat) : ∃ inner newline,
    Balanced inner ∧ Reads none false 0 (api.block step).toList
      (requestHead api.name ++ (inner ++ [api.closing step newline])) (.ok false) := by
  have parts : (api.block step).toList = "export".toList ++ (' ' :: ("async".toList ++
      (' ' :: ("function".toList ++ (' ' :: (api.name.toList ++ ("(".toList ++ (")".toList ++
        (' ' :: ("\x7b".toList ++ (api.inside step ++ ['\x7d']))))))))))) := by
    rw [writable.toList_block step]
    simp
  have named := writable.named
  obtain ⟨first, rest, same⟩ : ∃ first rest, api.name.toList = first :: rest := by
    cases chars : api.name.toList with
    | nil =>
      rw [chars] at named
      cases named
    | cons first rest => exact ⟨first, rest, rfl⟩
  have solid : ∀ after, (api.name.toList ++ after).head?.any isSpace = false := by
    rw [same] at named ⊢
    exact fun after => (startsWord_cases (Bool.and_eq_true_iff.mp named).1).1
  have single (place : Nat) : place + api.name.length + 1 = place + 1 + api.name.length := by omega
  obtain ⟨inner, newline, matched, reads⟩ := completes_requestLines writable.bounded step
    (some (.inLine .punctuator "\x7b" (25 + api.name.length))) false (26 + api.name.length) rfl
  refine ⟨inner, newline, openBrackets_eq_nil.mp matched, ?_⟩
  rw [parts, requestHead]
  refine .token (startsWith_word (by decide) rfl) rfl rfl (.blank rfl rfl ?_)
  refine .token (startsWith_word (by decide) rfl) rfl rfl (.blank rfl rfl ?_)
  refine .token (startsWith_word (by decide) rfl) rfl rfl (.blank (solid _) rfl ?_)
  refine .token (startsWith_word named rfl) rfl rfl ?_
  refine .token (startsWith_single (by decide)) rfl (single 22) ?_
  refine .token (startsWith_single (by decide)) rfl (single 23) (.blank rfl (single 24) ?_)
  exact .token (startsWith_single (by decide)) rfl (single 25) reads

/-- The tokens of a request: its head, and those between its braces. -/
theorem Writable.tokenize_block (writable : api.Writable) (step : Nat) : ∃ inner newline,
    Balanced inner ∧ tokenize (api.block step) =
      .ok (requestHead api.name ++ (inner ++ [api.closing step newline]) ++
        [.atEnd (api.block step).length false]) := by
  obtain ⟨inner, newline, nested, reads⟩ := writable.reads_block step
  refine ⟨inner, newline, nested, ?_⟩
  have body : Balanced (.inLine .punctuator "\x7b" (25 + api.name.length) ::
      (inner ++ [api.closing step newline])) := .pair ⟨rfl, rfl, rfl⟩ nested .nil
  have parameters : Balanced (.inLine .punctuator "(" (22 + api.name.length) ::
      ([] ++ .inLine .punctuator ")" (23 + api.name.length) ::
        .inLine .punctuator "\x7b" (25 + api.name.length) ::
          (inner ++ [api.closing step newline]))) := .pair ⟨rfl, rfl, rfl⟩ .nil body
  have whole : Balanced (requestHead api.name ++ (inner ++ [api.closing step newline])) :=
    .other nofun nofun (.other nofun nofun (.other nofun nofun (.other nofun nofun parameters)))
  rw [tokenize_of_pieces (pieces_of_reads reads (Nat.le_refl _)), openBrackets_eq_nil.mpr whole]

/-- The text between the braces. -/
theorem Writable.slice_block (writable : api.Writable) (step : Nat) :
    Span.slice ⟨26 + api.name.length, 26 + api.name.length + (api.inside step).length⟩
      (api.block step).toList = String.ofList (api.inside step) := by
  have head : ("export async function ".toList ++ (api.name.toList ++ "() \x7b".toList)).length =
      26 + api.name.length := by
    rw [List.length_append, List.length_append, String.length_toList, ← Nat.add_assoc,
      Nat.add_right_comm]
    rfl
  have parts : (api.block step).toList =
      ("export async function ".toList ++ (api.name.toList ++ "() \x7b".toList)) ++
        (api.inside step ++ ['\x7d']) := by
    rw [writable.toList_block step]
    simp only [List.append_assoc]
  rw [Span.slice, parts, ← head]
  simp only [Nat.add_sub_cancel_left, List.drop_left, List.take_left]

/-- The request that is found between the braces. -/
def found? (api : ApiAttributes) (step : Nat) : Option ApiAttributes :=
  (Text.dedent? (api.inside step)).bind (request? api.name)

/-- What is written for a request is read as the request that is found between the braces, and as a
function if none is found. -/
theorem Writable.topStatement_block (writable : api.Writable) (step : Nat) {inner : List Token}
    {newline : Bool} (nested : Balanced inner) (last : Token) : ∃ span function children,
    Reading.topStatement ⟨(api.block step).toList, true⟩
        ⟨requestHead api.name ++ (inner ++ [api.closing step newline]), last⟩ =
      some ([match api.found? step with
        | some request => .mk (.api request) span []
        | none => .mk (.functionDecl function) span children], ⟨[], last⟩) := by
  let source : Reading := ⟨(api.block step).toList, true⟩
  let rest : List Token := inner ++ [api.closing step newline]
  let at' (count : Nat) : Cursor := ⟨(requestHead api.name).drop count ++ rest, last⟩
  have async : (at' 1).peek.isWord "async" = true := rfl
  have named : (at' 1).advance.advance.expectIdentifier =
      some (.inLine .identifier api.name 22, at' 4) := rfl
  have types : Extent.typeParameters (at' 4) = some (at' 4) := rfl
  have parameters : (at' 4).parameters = some ([], at' 6) := Cursor.parameters_nil rfl rfl _ _
  have result : (at' 6).resultType [";"] = some (none, at' 6) := rfl
  have opened : (at' 6).expectPunct "\x7b" =
      some (.inLine .punctuator "\x7b" (25 + api.name.length), ⟨rest, last⟩) := rfl
  have enclosed : Extent.enclosed? 1 rest = some (inner, api.closing step newline, []) :=
    nested.enclosed?_closer rfl []
  have start : (Token.inLine .punctuator "\x7b" (25 + api.name.length)).stop =
      26 + api.name.length := Nat.add_right_comm 25 api.name.length 1
  have text : source.text ⟨26 + api.name.length, (api.closing step newline).start⟩ =
      String.ofList (api.inside step) := writable.slice_block step
  have found : source.request? api.name true []
      (Option.map String.ofList (Text.dedent? (api.inside step))) = api.found? step := by
    have rebuilt : (fun body : String => request? api.name body.toList) ∘ String.ofList =
        request? api.name := by
      funext body
      simp
    rw [found?, ← rebuilt, ← Option.bind_map]
    rfl
  have statement : source.topStatement (at' 0) = source.functionStatement 0 (at' 1) := rfl
  have value : (Token.inLine .identifier api.name 22).value = api.name := rfl
  have moved : (at' 6).move [] = ⟨[], last⟩ := rfl
  refine ⟨⟨0, (api.closing step newline).stop⟩,
    { name := api.name, parameters := [], returnType := none, isAsync := true,
      body := (Text.dedent? (api.inside step)).map String.ofList },
    StatementReader.all source.bodyStatement inner.length ⟨inner, api.closing step newline⟩,
    statement.trans ?_⟩
  cases within : api.found? step <;>
    simp only [Reading.functionStatement, async, if_true, named, value, types, parameters, result,
      opened, enclosed, start, text, found, within, moved, String.toList_ofList, List.map_nil,
      Option.map_none, Option.bind_eq_bind, Option.bind_some]

end ApiAttributes

/-- What is written for a request has it as its only node if and only if it is found. -/
theorem ApiAttributes.Writable.parse_block {api : ApiAttributes} (writable : api.Writable)
    (step : Nat) :
    (∃ read, parse true (api.block step) = .ok [read] ∧ read.content = .typed (.api api)) ↔
      api.found? step = some api := by
  obtain ⟨inner, newline, nested, tokenized⟩ := writable.tokenize_block step
  obtain ⟨span, function, children, read⟩ := writable.topStatement_block step nested
    (.atEnd (api.block step).length false)
  have parsed := parse_single (List.append_ne_nil_of_left_ne_nil (List.cons_ne_nil _ _) _)
    tokenized read
  rw [parsed]
  cases found : api.found? step with
  | some request => simp [Construct.nodes, Construct.listNodes]
  | none => simp [Construct.nodes]

/-- A request alone at the top level is written as its block. -/
theorem render_request {api : ApiAttributes} {node : Node}
    (content : node.content = .typed (.api api)) (top : node.isTopLevel = true) (step : Nat) :
    ∃ program, render step [node] = .ok program ∧ program.text = api.block step := by
  have attributes : node.attributes? = .ok (some (.api api)) := by
    rw [Node.attributes?, content]
  have block (children : List Node) : node.block step children = .ok (api.block step) := by
    rw [Node.block, attributes]
    rfl
  have blocks : Program.blocks step [node] = .ok [(node.id, api.block step)] := by
    rw [Program.blocks, List.filter_cons_of_pos top, List.filter_nil, List.mapM_cons, block]
    rfl
  refine ⟨Program.ofBlocks [(node.id, api.block step)], ?_, ?_⟩
  · rw [render, blocks]
    rfl
  · simp only [Program.ofBlocks, List.map_singleton, String.intercalate_singleton]

/-- **A request is read back** from the text that is written for it, as its only node, if and only
if its body is in one line, or else is written without indentation and has no blanks before a line
feed. -/
theorem readsBack_request_iff {api : ApiAttributes} (writable : api.Writable) (step : Nat)
    {node : Node} (content : node.content = .typed (.api api)) (top : node.isTopLevel = true) :
    ∃ program, render step [node] = .ok program ∧
      ((∃ read, parse true program.text = .ok [read] ∧ read.content = .typed (.api api)) ↔
        ∀ body ∈ api.body, Template.Keeps step body) := by
  obtain ⟨program, rendered, text⟩ := render_request content top step
  have solid : ∀ body ∈ api.body, body.toList.head?.all Text.isBlank = false := by
    intro body given
    obtain ⟨-, -, -, -, -, -, -, c, rest, same, -, blank⟩ := (writable.bounded body given).reads
    rw [same]
    exact blank
  refine ⟨program, rendered, ?_⟩
  rw [text, writable.parse_block step, ApiAttributes.found?, ApiAttributes.inside]
  exact Template.request?_dedent_iff api.name writable.filled writable.capital writable.apart solid
    step

/-- A request with a body, and everything else that a request may have. -/
def posted (body : String) : ApiAttributes :=
  { name := "f", method := "POST", endpoint := "/\"x\"", headers := [("k", "v"), ("", "\n")],
    body := some body }

theorem writable_posted {body : String} (bounded : Bounded body) : (posted body).Writable where
  named := show isWhole "f".toList = true by decide
  filled := show "POST" ≠ "" by decide
  capital := show ∀ c ∈ "POST".toList, 'A' ≤ c ∧ c ≤ 'Z' from
    List.all_iff_forall_prop.mp (by decide)
  apart := show ["k", ""].Nodup by decide
  bounded := by simpa [posted] using bounded

/-- The node of such a request. -/
def postedNode (body : String) : Node := { id := "f", content := .typed (.api (posted body)) }

/-- A body in one line comes through. -/
theorem readsBack_request_posted : (posted "JSON.stringify(x)").Writable ∧
    ∃ program, render 2 [postedNode "JSON.stringify(x)"] = .ok program ∧
      ∃ read, parse true program.text = .ok [read] ∧
        read.content = .typed (.api (posted "JSON.stringify(x)")) := by
  have writable : (posted "JSON.stringify(x)").Writable := writable_posted (by decide +kernel)
  have content : (postedNode "JSON.stringify(x)").content = _ := rfl
  obtain ⟨program, rendered, back⟩ := readsBack_request_iff writable 2 content rfl
  exact ⟨writable, program, rendered, back.mpr (by simp [posted, Template.Keeps])⟩

/-- A body of two lines does not: only the first one is put behind the margin. -/
theorem not_readsBack_request : (posted "\x7b\n\x7d").Writable ∧
    ∃ program, render 2 [postedNode "\x7b\n\x7d"] = .ok program ∧
      ¬∃ read, parse true program.text = .ok [read] ∧
        read.content = .typed (.api (posted "\x7b\n\x7d")) := by
  have writable : (posted "\x7b\n\x7d").Writable := writable_posted (by decide +kernel)
  have content : (postedNode "\x7b\n\x7d").content = _ := rfl
  obtain ⟨program, rendered, text⟩ := render_request content rfl 2
  have lost : (posted "\x7b\n\x7d").found? 2 ≠ some (posted "\x7b\n\x7d") := by
    decide +kernel
  refine ⟨writable, program, rendered, ?_⟩
  rw [text, writable.parse_block 2]
  exact lost

end SourceCanvas
