import SourceCanvas.Proofs.BodyText
import SourceCanvas.Proofs.Captures

/-!
# Function bodies

Of a function a text is kept and written out again, not a list of tokens. Whether its tokens come
through depends on the line feeds in them (`carries_iff`): without any the captured body has the
tokens of the source, and so has what is written for it at any indentation. A token of several
lines, a template or a string that goes on behind a line feed, is lost at some indentation.

One more thing can go wrong. Where a regular expression may start, a solidus starts one if the line
holds an end for it, and is a punctuator otherwise; and an escaped blank at the end of a line, once
it is removed, lets the line go on. So nothing is said of bodies with a punctuator where a regular
expression could stand (`Lexer.Settled`).
-/

namespace SourceCanvas

open SourceCanvas.Text (split)

/-- What a token says in a text is found in it. -/
theorem infix_of_contents {text : String} {lexemes : List (TokenKind × String)}
    (found : contents text = .ok lexemes) :
    ∀ lexeme ∈ lexemes, lexeme.2.toList <:+: text.toList := by
  rw [contents] at found
  cases tokenized : tokenize text with
  | error error =>
    rw [tokenized] at found
    cases found
  | ok tokens =>
    rw [tokenized] at found
    cases found
    obtain ⟨before, newline, rfl, reads, -⟩ := reads_of_tokenize tokenized
    intro lexeme member
    simp only [List.dropLast_concat] at member
    obtain ⟨token, token_mem, rfl⟩ := List.mem_map.mp member
    exact reads.infix token token_mem

/-- The text between two braces spells the tokens between them, as far as solidi are settled. -/
theorem Braces.spells {text : String} {tokens inner : List Token} {opener closer : Token}
    (tokenized : tokenize text = .ok tokens) (braces : Braces tokens.dropLast opener inner closer)
    (settled : Lexer.Settled true (inner.map Token.lexeme)) :
    Lexer.Spells true (Span.slice ⟨opener.stop, closer.start⟩ text.toList).toList
      (inner.map Token.lexeme) := by
  obtain ⟨before, newline, rfl, reads, -⟩ := reads_of_tokenize tokenized
  rw [List.dropLast_concat] at braces
  obtain ⟨front, behind, parts⟩ := braces.place
  obtain ⟨front, rest, same, stop, reads⟩ := reads.behind parts
  have allowed : Lexer.regexAllowed (some opener) = true := by
    obtain ⟨punct, value⟩ := Token.isPunct_iff.mp braces.opens
    simp [Lexer.regexAllowed, Token.isPunctIn, punct, value]
  have brace := (Token.isPunct_iff.mp braces.closes).2
  rw [← allowed] at settled ⊢
  obtain ⟨mid, post, rfl, place, spells⟩ := reads.spells rfl brace settled
  have slice : Span.slice ⟨opener.stop, closer.start⟩ text.toList = String.ofList mid := by
    have stop : opener.stop = front.length := by omega
    have length : closer.start - opener.stop = mid.length := by omega
    rw [Span.slice, same]
    simp only [length]
    rw [stop, List.drop_left, List.take_left]
  rwa [slice, String.toList_ofList]

/-- What is written for a function with a captured body that is not blank: the body stands in
braces, whatever the nodes below. -/
theorem FunctionAttributes.block_eq {function : FunctionAttributes} {body : String}
    (captured : function.body = some body) (solid : Text.isBlankText body.toList = false)
    (step : Nat) (children : List Node) :
    function.block step children =
      .ok (function.header ++ "\n" ++ writtenBody step body ++ "\n\x7d") := by
  have lines : function.bodyLines children = .ok ((split '\n' body.toList).map String.ofList) := by
    rw [FunctionAttributes.bodyLines, captured, Option.filter_some, solid]
    rfl
  have filled : ((split '\n' body.toList).map String.ofList).map (indented step 1) ≠ [] := by
    simp [Text.split_ne_nil]
  have written : unlines (function.header ::
      ((split '\n' body.toList).map String.ofList).map (indented step 1) ++ ["\x7d"]) =
      function.header ++ "\n" ++ writtenBody step body ++ "\n\x7d" := by
    rw [unlines, String.intercalate_append_of_ne_nil (by simp) (by simp),
      String.intercalate_cons_of_ne_nil filled, String.intercalate_singleton]
    rw [writtenBody, unlines, show "\n\x7d" = "\n" ++ "\x7d" by decide, ← String.append_assoc]
  rw [FunctionAttributes.block, lines, ← written]
  rfl

/-- A body has the given tokens as it is captured, and as it is written at each indentation. -/
structure Carries (body : String) (lexemes : List (TokenKind × String)) : Prop where
  captured : contents body = .ok lexemes
  written : ∀ step, contents (writtenBody step body) = .ok lexemes

variable {body : String} {lexemes : List (TokenKind × String)} {inner : List Token}

/-- What a body spells it carries, if each token stands in one line. -/
theorem carries_of_spells (spells : Lexer.Spells true body.toList (inner.map Token.lexeme))
    (matched : Lexer.openBrackets [] inner = .ok [])
    (flat : ∀ lexeme ∈ inner.map Token.lexeme, '\n' ∉ lexeme.2.toList)
    (settled : Lexer.Settled true (inner.map Token.lexeme)) :
    Carries body (inner.map Token.lexeme) where
  captured := contents_of_spells spells rfl matched
  written step :=
    contents_of_spells (spells.rearranged (rearranged_written step body) flat settled) rfl matched

/-- A token of several lines is lost where lines are moved by as many spaces as it is long. -/
theorem Carries.flat (carries : Carries body lexemes)
    (solid : ∀ lexeme ∈ lexemes,
      ∃ c, lexeme.2.toList.getLast? = some c ∧ Text.isBlank c = false) :
    ∀ lexeme ∈ lexemes, '\n' ∉ lexeme.2.toList := by
  intro lexeme member several
  obtain ⟨c, ends, solid⟩ := solid lexeme member
  have found := infix_of_contents (carries.written lexeme.2.toList.length) lexeme member
  exact not_infix_written body several ends solid found

/-- A text that has tokens has nodes. -/
theorem exists_parse {text : String} {tokens : List Token} (tokenized : tokenize text = .ok tokens)
    (reclassify : Bool) : ∃ nodes, parse reclassify text = .ok nodes := by
  rw [parse, outline, tokenized]
  exact ⟨_, rfl⟩

/-- A node ends with the second of two braces, and the tokens stand between them. -/
def Node.Encloses (tokens : List Token) (node : Node) (inner : List Token) : Prop :=
  ∃ opener closer, Braces tokens opener inner closer ∧ node.span.map Span.stop = some closer.stop

/-- There are no other tokens between the braces with which a node ends. -/
theorem Node.Encloses.eq {text : String} {tokens inner inner' : List Token} {node : Node}
    (tokenized : tokenize text = .ok tokens) (encloses : node.Encloses tokens.dropLast inner)
    (encloses' : node.Encloses tokens.dropLast inner') : inner = inner' := by
  obtain ⟨before, newline, rfl, laid, -⟩ := laid_of_tokenize tokenized
  rw [List.dropLast_concat] at encloses encloses'
  obtain ⟨opener, closer, braces, stop⟩ := encloses
  obtain ⟨opener', closer', braces', stop'⟩ := encloses'
  exact braces.eq_of_stop laid braces' (Option.some.inj (stop.symm.trans stop'))

/-- **A function carries its body** if and only if no token between its braces goes over a line
feed, as far as solidi are settled. What is written for it is its header and the body in braces. -/
theorem carries_iff {reclassify : Bool} {text : String} {tokens : List Token} {nodes : List Node}
    (tokenized : tokenize text = .ok tokens) (read : parse reclassify text = .ok nodes)
    {node : Node} (member : node ∈ nodes) {function : FunctionAttributes}
    (declared : node.content = .typed (.functionDecl function)) {body : String}
    (captured : function.body = some body) :
    (∃ inner, node.Encloses tokens.dropLast inner) ∧
      (∀ step children, function.block step children =
        .ok (function.header ++ "\n" ++ writtenBody step body ++ "\n\x7d")) ∧
      ∀ inner, node.Encloses tokens.dropLast inner →
        Lexer.Settled true (inner.map Token.lexeme) →
          (Carries body (inner.map Token.lexeme) ↔
            ∀ token ∈ inner, '\n' ∉ token.value.toList) := by
  obtain ⟨opener, inner, closer, span, known, braces, stop, kept⟩ :=
    captured_of_parse tokenized read member declared
  rw [captured] at kept
  obtain ⟨dedented, laid, rfl⟩ := Option.map_eq_some_iff.mp kept.symm
  have encloses : node.Encloses tokens.dropLast inner :=
    ⟨opener, closer, braces, by rw [known, Option.map_some, stop]⟩
  refine ⟨⟨inner, encloses⟩, function.block_eq captured ?_, ?_⟩
  · rw [String.toList_ofList]
    exact Text.isBlankText_dedent laid
  intro inner' encloses' settled
  obtain rfl := encloses.eq tokenized encloses'
  have spells := braces.spells tokenized settled
  have lexemes : (∀ lexeme ∈ inner.map Token.lexeme, '\n' ∉ lexeme.2.toList) ↔
      ∀ token ∈ inner, '\n' ∉ token.value.toList := List.forall_mem_map
  rw [← lexemes]
  constructor
  · intro carries
    exact carries.flat spells.solid_end
  · intro flat
    refine carries_of_spells ?_ braces.matched flat settled
    rw [String.toList_ofList]
    exact spells.rearranged (Text.rearranged_dedent laid) flat settled

/-- The tokens before the brace that opens the body of a function without parameters. -/
def functionHead : List Token :=
  [⟨.identifier, "function", ⟨0, 8⟩, false⟩, ⟨.identifier, "f", ⟨9, 10⟩, false⟩,
    ⟨.punctuator, "(", ⟨10, 11⟩, false⟩, ⟨.punctuator, ")", ⟨11, 12⟩, false⟩]

/-- The function with a body of which nothing else is known. -/
def bodied (body : String) : FunctionAttributes := { name := "f", body := some body }

/-- A statement in one line is carried. -/
theorem carries_iff_return : ∃ tokens nodes node inner,
    tokenize "function f() \x7b return 1; \x7d" = .ok tokens ∧
      parse true "function f() \x7b return 1; \x7d" = .ok nodes ∧ node ∈ nodes ∧
      node.content = .typed (.functionDecl (bodied "return 1;")) ∧
      node.Encloses tokens.dropLast inner ∧ Lexer.Settled true (inner.map Token.lexeme) ∧
      Carries "return 1;" (inner.map Token.lexeme) := by
  let opener : Token := ⟨.punctuator, "\x7b", ⟨13, 14⟩, false⟩
  let inner : List Token :=
    [⟨.identifier, "return", ⟨15, 21⟩, false⟩, ⟨.number, "1", ⟨22, 23⟩, false⟩,
      ⟨.punctuator, ";", ⟨23, 24⟩, false⟩]
  let closer : Token := ⟨.punctuator, "\x7d", ⟨25, 26⟩, false⟩
  have tokenized : tokenize "function f() \x7b return 1; \x7d" =
    .ok (functionHead ++ opener :: (inner ++ [closer]) ++ [.atEnd 26 false]) := by decide +kernel
  have declares : ∀ nodes ∈ (parse true "function f() \x7b return 1; \x7d").toOption,
      ∃ node ∈ nodes, node.content = .typed (.functionDecl (bodied "return 1;")) ∧
        node.span = some ⟨0, 26⟩ := by decide +kernel
  obtain ⟨nodes, read⟩ := exists_parse tokenized true
  obtain ⟨node, member, declared, span⟩ := declares nodes (by rw [read]; rfl)
  have encloses : node.Encloses
      (functionHead ++ opener :: (inner ++ [closer]) ++ [Token.atEnd 26 false]).dropLast inner :=
    ⟨opener, closer, ⟨⟨functionHead, [], List.dropLast_concat⟩, rfl, rfl, rfl⟩, by rw [span]; rfl⟩
  have settled : Lexer.Settled true (inner.map Token.lexeme) := ⟨nofun, nofun, by decide, trivial⟩
  obtain ⟨-, -, carries⟩ := carries_iff tokenized read member declared rfl
  exact ⟨_, nodes, node, inner, tokenized, read, member, declared, encloses, settled,
    (carries inner encloses settled).mpr (by decide)⟩

/-- A template of two lines loses the margin of its second line. -/
theorem not_carries_template : ∃ tokens nodes node inner,
    tokenize "function f() \x7b\n  return `a\n  b`;\n\x7d" = .ok tokens ∧
      parse true "function f() \x7b\n  return `a\n  b`;\n\x7d" = .ok nodes ∧ node ∈ nodes ∧
      node.content = .typed (.functionDecl (bodied "return `a\nb`;")) ∧
      node.Encloses tokens.dropLast inner ∧ ¬Carries "return `a\nb`;" (inner.map Token.lexeme) := by
  let opener : Token := ⟨.punctuator, "\x7b", ⟨13, 14⟩, false⟩
  let inner : List Token :=
    [⟨.identifier, "return", ⟨17, 23⟩, true⟩, ⟨.template, "`a\n  b`", ⟨24, 31⟩, false⟩,
      ⟨.punctuator, ";", ⟨31, 32⟩, false⟩]
  let closer : Token := ⟨.punctuator, "\x7d", ⟨33, 34⟩, true⟩
  have tokenized : tokenize "function f() \x7b\n  return `a\n  b`;\n\x7d" =
    .ok (functionHead ++ opener :: (inner ++ [closer]) ++ [.atEnd 34 false]) := by decide +kernel
  have declares : ∀ nodes ∈ (parse true "function f() \x7b\n  return `a\n  b`;\n\x7d").toOption,
      ∃ node ∈ nodes, node.content = .typed (.functionDecl (bodied "return `a\nb`;")) ∧
        node.span = some ⟨0, 34⟩ := by decide +kernel
  obtain ⟨nodes, read⟩ := exists_parse tokenized true
  obtain ⟨node, member, declared, span⟩ := declares nodes (by rw [read]; rfl)
  have encloses : node.Encloses
      (functionHead ++ opener :: (inner ++ [closer]) ++ [Token.atEnd 34 false]).dropLast inner :=
    ⟨opener, closer, ⟨⟨functionHead, [], List.dropLast_concat⟩, rfl, rfl, rfl⟩, by rw [span]; rfl⟩
  have other : contents "return `a\nb`;" ≠ .ok (inner.map Token.lexeme) := by decide +kernel
  exact ⟨_, nodes, node, inner, tokenized, read, member, declared, encloses,
    fun carries => other carries.captured⟩

end SourceCanvas
