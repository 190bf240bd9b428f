import Mathlib.Data.List.Basic
import SourceCanvas.Proofs.Brackets
import SourceCanvas.Proofs.Lexemes

/-!
# Substitutions

A substitution in a template is scanned for the brace that closes it: strings and templates are
passed over, other braces are counted, and all else goes by character for character. Of the tokens
of a text such a scan meets the same strings, templates and braces (`Reads.fills`). But it knows
neither comments nor regular expressions. A text with tokens can be substituted if these do not
matter to the scan (`tokenize_substitution`), and a quote in one of them makes a difference
(`not_tokenized_quote`).
-/

namespace SourceCanvas

namespace Lexer

/-! ## Scans over a text -/

/-- A text that makes no difference to the scan of a substitution: whatever is open before it, the
scan goes on behind it as if it were not there. -/
def Inert (text : List Char) : Prop :=
  ∀ depth outer run, Fills (.code depth :: outer) run → Fills (.code depth :: outer) (text ++ run)

/-- What lies before, between and behind tokens, in a text that starts at an offset. -/
def gaps (offset : Nat) (text : List Char) : List Token → List (List Char)
  | [] => [text]
  | token :: tokens =>
    text.take (token.start - offset) ::
      gaps token.stop (text.drop (token.stop - offset)) tokens

/-- The count of braces among open brackets. -/
def braces (opened : List Token) : Nat := opened.countP fun token => token.value = "\x7b"

variable {enclosures outer : List Enclosure} {run rest text after : List Char} {depth : Nat}

/-- What fills some enclosures comes before what fills those around them. -/
theorem Fills.append (fills : Fills enclosures run) (later : Fills outer rest) :
    Fills (enclosures ++ outer) (run ++ rest) := by
  induction fills with
  | done => exact later
  | quotedEscape c _ ih => exact .quotedEscape c ih
  | quotedEnd plain _ ih => exact .quotedEnd plain ih
  | quotedChar plain other inLine _ ih => exact .quotedChar plain other inLine ih
  | templateEscape c _ ih => exact .templateEscape c ih
  | templateEnd _ ih => exact .templateEnd ih
  | substitution _ ih => exact .substitution ih
  | dollar other later ih =>
    refine .dollar ?_ ih
    show (_ ++ rest).head? ≠ some '\x7b'
    rwa [List.head?_append_of_ne_nil _ later.ne_nil]
  | templateChar plain other other' _ ih => exact .templateChar plain other other' ih
  | string quote _ ih => exact .string quote ih
  | innerTemplate _ ih => exact .innerTemplate ih
  | brace _ ih => exact .brace ih
  | closing _ ih => exact .closing ih
  | codeEnd _ ih => exact .codeEnd ih
  | codeChar quote other inside inside' _ ih => exact .codeChar quote other inside inside' ih

/-- A text without quotes and braces makes no difference. -/
theorem inert_of_plain (plain : ∀ c ∈ text, c ∉ '\x7b' :: '\x7d' :: quotes) : Inert text := by
  intro depth outer run fills
  induction text with
  | nil => exact fills
  | cons c text ih =>
    have here := plain c (List.mem_cons_self ..)
    simp only [quotes, List.mem_cons, List.not_mem_nil, or_false, not_or] at here
    refine .codeChar (by simp [here]) here.2.2.2.2 here.1 here.2.1 (ih fun d member => ?_)
    exact plain d (List.mem_cons_of_mem c member)

/-- What lies inside a chunk makes no difference. -/
theorem inert_of_inside (inside : ∀ c ∈ text, endsChunk c = false) : Inert text := by
  refine inert_of_plain fun c member mark => ?_
  have ends : ∀ c ∈ '\x7b' :: '\x7d' :: quotes, endsChunk c = true :=
    List.all_iff_forall_prop.mp (by decide)
  exact Bool.eq_false_iff.mp (inside c member) (ends c mark)

/-! ## Scans over tokens -/

/-- What a lexeme is to the scan of a substitution: a whole string or template, a regular
expression, a punctuator that stands alone, or a text that makes no difference. -/
inductive Sight : TokenKind → List Char → Prop where
  | string {kind : TokenKind} {mark : Char} {run : List Char} (quote : mark = '"' ∨ mark = '\'')
      (fills : Fills [.quoted mark] run) : Sight kind (mark :: run)
  | template {kind : TokenKind} {run : List Char} (fills : Fills [.template] run) :
      Sight kind ('`' :: run)
  | regex {run : List Char} : Sight .regex run
  | single {c : Char} (member : c ∈ singles) : Sight .punctuator [c]
  | plain {kind : TokenKind} {run : List Char} (inert : Inert run) : Sight kind run

variable {previous : Option Token} {newline : Bool} {offset start length : Nat} {first : Char}
  {kind : TokenKind} {tokens opened : List Token} {outcome : Except LexicalError Bool}

/-- A number, a word or a punctuator holds no quotes, and no braces unless it is one. -/
theorem sight_of_plain (parts : first :: rest = run ++ after)
    (read : plainPiece offset first (first :: rest) = .ok (.lexeme run.length kind)) :
    Sight kind run := by
  by_cases member : first ∈ singles
  · rw [plainPiece_single member] at read
    obtain ⟨length, rfl⟩ : 1 = run.length ∧ TokenKind.punctuator = kind := by simpa using read
    have parts : [first] ++ rest = run ++ after := parts
    obtain ⟨rfl, rfl⟩ := List.append_inj parts length
    exact .single member
  · have fits : run.length ≤ (chunk (first :: rest)).length :=
      length_le_chunk (by simpa using member) read
    refine .plain (inert_of_inside fun c inside => not_endsChunk_of_mem_take fits ?_)
    rwa [parts, List.take_left]

theorem sight_of_piece (parts : first :: rest = run ++ after)
    (read : piece previous offset first rest = .ok (.lexeme run.length kind)) : Sight kind run := by
  have bare := bare_of_piece read
  rw [bare.piece] at read
  split at read
  · next quote =>
    obtain ⟨rfl, run', after', rfl, length, fills⟩ := fills_of_framed read
    have parts : (first :: run') ++ after' = run ++ after := parts
    obtain ⟨rfl, rfl⟩ := List.append_inj parts length.symm
    exact .string (by simpa using quote) fills
  split at read
  · next tick =>
    subst tick
    obtain ⟨rfl, run', after', rfl, length, fills⟩ := fills_of_framed read
    have parts : ('`' :: run') ++ after' = run ++ after := parts
    obtain ⟨rfl, rfl⟩ := List.append_inj parts length.symm
    exact .template fills
  split at read
  · next solidus =>
    split at read
    · cases read
      exact .regex
    · -- a solidus that starts no regular expression is read as a division would be
      obtain ⟨rfl, -⟩ : first = '/' ∧ _ := by simpa using solidus
      have positive := punctuatorLength_solidus_pos rest
      have digit : Text.isDigit '/' = false := by decide
      have word : startsWord '/' = false := by decide
      have plain : plainPiece offset '/' ('/' :: rest) =
          .ok (.lexeme (punctuatorLength ('/' :: rest)) .punctuator) := by
        simp [plainPiece, digit, wordLength, word, Nat.ne_of_gt positive]
      exact sight_of_plain parts (plain.trans read)
  · exact sight_of_plain parts read

/-- A lexeme that is no bracket makes no difference. -/
theorem Sight.inert (sight : Sight kind run) (regex : kind = .regex → Inert run)
    (other : kind = .punctuator → run ≠ ['\x7b'] ∧ run ≠ ['\x7d']) : Inert run := by
  cases sight with
  | string quote fills =>
    intro depth outer rest later
    exact .string quote (fills.append later)
  | template fills =>
    intro depth outer rest later
    exact .innerTemplate (fills.append later)
  | regex => exact regex rfl
  | @single c member =>
    obtain ⟨opener, closer⟩ := other rfl
    have quote : ∀ c ∈ singles, c ∉ quotes := List.all_iff_forall_prop.mp (by decide)
    refine inert_of_plain fun d mem => ?_
    obtain rfl := List.mem_singleton.mp mem
    simp only [List.mem_cons, not_or]
    exact ⟨by simpa using opener, by simpa using closer, quote d member⟩
  | plain inert => exact inert

theorem inert_single {c : Char} (other : c ∉ '\x7b' :: '\x7d' :: quotes) : Inert [c] :=
  inert_of_plain fun d member => by
    obtain rfl := List.mem_singleton.mp member
    exact other

theorem braces_cons (token : Token) (opened : List Token) :
    braces (token :: opened) = braces opened + if token.value = "\x7b" then 1 else 0 := by
  simp [braces, List.countP_cons]

/-- An opening bracket counts if it is a brace. -/
theorem fills_opener {token : Token} (opens : token.isOpener = true)
    (later : Fills (.code (braces (token :: opened)) :: outer) rest) :
    Fills (.code (braces opened) :: outer) (token.value.toList ++ rest) := by
  have value := (Token.isPunctIn_iff.mp opens).2
  simp only [List.mem_cons, List.not_mem_nil, or_false] at value
  rw [braces_cons] at later
  rcases value with same | same | same <;> rw [same] at later ⊢
  · exact inert_single (c := '(') (by decide) _ _ _ later
  · exact inert_single (c := '[') (by decide) _ _ _ later
  · exact .brace later

/-- A closing bracket counts if it closes a brace. -/
theorem fills_closer {opener closer : Token} (opens : opener.isOpener = true)
    (same : closer.value = closerOf opener.value)
    (later : Fills (.code (braces opened) :: outer) rest) :
    Fills (.code (braces (opener :: opened)) :: outer) (closer.value.toList ++ rest) := by
  have value := (Token.isPunctIn_iff.mp opens).2
  simp only [List.mem_cons, List.not_mem_nil, or_false] at value
  rw [braces_cons]
  rcases value with value | value | value <;> rw [value] at same ⊢ <;> rw [same]
  · exact inert_single (c := ')') (by decide) _ _ _ later
  · exact inert_single (c := ']') (by decide) _ _ _ later
  · exact .closing later

/-- A scan goes over a token from the braces that are open before it to those open behind it. -/
theorem Sight.fills {token : Token} {left : List Token}
    (sight : Sight token.kind token.value.toList)
    (regex : token.kind = .regex → Inert token.value.toList)
    (openers : ∀ opener ∈ opened, opener.isOpener = true)
    (matched : openBrackets opened (token :: tokens) = .ok left) :
    ∃ opened', openBrackets opened' tokens = .ok left ∧
      (∀ opener ∈ opened', opener.isOpener = true) ∧
      ∀ outer rest, Fills (.code (braces opened') :: outer) rest →
        Fills (.code (braces opened) :: outer) (token.value.toList ++ rest) := by
  by_cases opens : token.isOpener = true
  · rw [openBrackets_opener opens] at matched
    exact ⟨token :: opened, matched, by simpa [opens] using openers, fun _ _ => fills_opener opens⟩
  by_cases closes : token.isCloser = true
  · cases opened with
    | nil =>
      rw [openBrackets.eq_def] at matched
      simp [opens, closes] at matched
    | cons opener opened =>
      rw [openBrackets_closer opens closes] at matched
      split at matched
      · next same =>
        have others : ∀ opener ∈ opened, opener.isOpener = true := fun bracket member =>
          openers bracket (List.mem_cons_of_mem opener member)
        have opens := openers opener (List.mem_cons_self ..)
        exact ⟨opened, matched, others, fun _ _ => fills_closer opens same⟩
      · cases matched
  · rw [openBrackets_other opens closes] at matched
    refine ⟨opened, matched, openers, sight.inert regex (fun kind => ⟨?_, ?_⟩) _⟩
    · intro same
      have value : token.value = "\x7b" := String.toList_inj.mp same
      exact opens (Token.isPunctIn_iff.mpr ⟨kind, by simp [value]⟩)
    · intro same
      have value : token.value = "\x7d" := String.toList_inj.mp same
      exact closes (Token.isPunctIn_iff.mpr ⟨kind, by simp [value]⟩)

theorem gaps_cons {token : Token} {gap : List Char} (place : start + gap.length = token.start)
    (width : token.start + run.length = token.stop) (behind : List Char) (tokens : List Token) :
    gaps start (gap ++ (run ++ behind)) (token :: tokens) =
      gap :: gaps token.stop behind tokens := by
  have before : token.start - start = gap.length := by omega
  have through : token.stop - start = (gap ++ run).length := by
    rw [List.length_append]
    omega
  rw [gaps, before, through, List.take_left, ← List.append_assoc, List.drop_left]

/-- A scan goes over a text with tokens, if what lies between them and the regular expressions among
them make no difference. A gap that has been read in part is put before the text. -/
theorem Reads.fills (reads : Reads previous newline offset text tokens outcome)
    (ended : outcome.toOption.isSome = true) {gap : List Char} (place : start + gap.length = offset)
    (inert : ∀ between ∈ gaps start (gap ++ text) tokens, Inert between)
    (regex : ∀ token ∈ tokens, token.kind = .regex → Inert token.value.toList)
    (openers : ∀ opener ∈ opened, opener.isOpener = true)
    (matched : openBrackets opened tokens = .ok [])
    (later : Fills (.code 0 :: outer) after) :
    Fills (.code (braces opened) :: outer) (gap ++ (text ++ after)) := by
  induction reads generalizing gap start opened with
  | ended =>
    cases matched
    exact inert gap (by simp [gaps]) _ _ _ later
  | stuck => cases ended
  | @gap previous newline offset first rest run behind newline' tokens outcome parts found _ ih =>
    have place' : start + (gap ++ run).length = offset + run.length := by
      rw [List.length_append]
      omega
    rw [parts, ← List.append_assoc] at inert
    rw [parts, List.append_assoc, ← List.append_assoc gap]
    exact ih ended place' inert regex openers matched
  | @lexeme previous newline offset first rest run behind kind tokens outcome parts found _ ih =>
    -- the gap that has been read so far ends here, and the next one is still empty
    rw [parts, gaps_cons place rfl] at inert
    have value : (String.ofList run).toList = run := String.toList_ofList
    have sight := sight_of_piece parts found
    rw [← value] at sight
    obtain ⟨opened', matched, openers, fills⟩ :=
      sight.fills (regex _ (List.mem_cons_self ..)) openers matched
    have here : offset + run.length + ([] : List Char).length = offset + run.length := rfl
    have behindFills := ih ended here
      (fun between member => inert between (List.mem_cons_of_mem _ member))
      (fun token member => regex token (List.mem_cons_of_mem _ member)) openers matched
    have whole := inert gap (List.mem_cons_self ..) _ _ _ (fills _ _ behindFills)
    rw [value] at whole
    rwa [parts, List.append_assoc]

/-- What fills a template is read as one, up to the end of the text. -/
theorem reads_template (fills : Fills [.template] run) :
    Reads none false 0 ('`' :: run)
      [⟨.template, String.ofList ('`' :: run), ⟨0, ('`' :: run).length⟩, false⟩] (.ok false) := by
  have bare : Bare '`' run :=
    ⟨by decide, by simp, by simp⟩
  have encloses : (Frame.template 0).enclosure = .template := rfl
  rw [← encloses] at fills
  have whole := fills.framed .template 0 []
  rw [List.append_nil] at whole
  have found : piece none 0 '`' run = .ok (.lexeme ('`' :: run).length .template) := by
    rw [bare.piece]
    exact whole
  have alone : Reads none false 0 ('`' :: run) _ (.ok false) := Reads.alone found
  rwa [Nat.zero_add] at alone

end Lexer

/-- A text with tokens can be substituted in a template, on lines of its own, if the blanks and
comments between its tokens and its regular expressions make no difference to a scan that knows
neither. Then the template is one token. -/
theorem tokenize_substitution {text : String} {tokens : List Token}
    (tokenized : tokenize text = .ok tokens)
    (inert : ∀ gap ∈ Lexer.gaps 0 text.toList tokens.dropLast, Lexer.Inert gap)
    (regex : ∀ token ∈ tokens, token.kind = .regex → Lexer.Inert token.value.toList) :
    tokenize ("`$\x7b" ++ text ++ "\n\x7d`") =
      .ok [⟨.template, "`$\x7b" ++ text ++ "\n\x7d`", ⟨0, text.length + 6⟩, false⟩,
        .atEnd (text.length + 6) false] := by
  obtain ⟨before, newline, rfl, reads, matched⟩ := reads_of_tokenize tokenized
  rw [List.dropLast_concat] at inert
  have closed : Lexer.Fills [.code 0, .template] "\n\x7d`".toList :=
    .codeChar (by decide) (by decide) (by decide) (by decide) (.codeEnd (.templateEnd .done))
  have inside : Lexer.Fills [.code 0, .template] ([] ++ (text.toList ++ "\n\x7d`".toList)) :=
    reads.fills rfl rfl inert (fun token member => regex token (List.mem_append_left _ member))
      (by simp) matched closed
  have whole := Lexer.reads_template (.substitution inside)
  have spelled : '`' :: '$' :: '\x7b' :: ([] ++ (text.toList ++ "\n\x7d`".toList)) =
      ("`$\x7b" ++ text ++ "\n\x7d`").toList := by
    simp
  have length : ("`$\x7b" ++ text ++ "\n\x7d`").length = text.length + 6 := by
    simp only [String.length_append]
    have front : "`$\x7b".length = 3 := by decide
    have back : "\n\x7d`".length = 3 := by decide
    omega
  rw [spelled, String.ofList_toList, String.length_toList, length] at whole
  rw [tokenize_of_pieces (Lexer.pieces_of_reads whole (Nat.le_refl _)), length]
  rfl

/-- The tokens of a call with a regular expression and braces, and a comment behind it. -/
def commentedCall : List Token :=
  [⟨.identifier, "f", ⟨0, 1⟩, false⟩, ⟨.punctuator, "(", ⟨1, 2⟩, false⟩,
    ⟨.regex, "/a+/", ⟨2, 6⟩, false⟩, ⟨.punctuator, ",", ⟨6, 7⟩, false⟩,
    ⟨.string, "'\x7d'", ⟨8, 11⟩, false⟩, ⟨.punctuator, ",", ⟨11, 12⟩, false⟩,
    ⟨.punctuator, "\x7b", ⟨13, 14⟩, false⟩, ⟨.punctuator, "\x7d", ⟨14, 15⟩, false⟩,
    ⟨.punctuator, ")", ⟨15, 16⟩, false⟩, .atEnd 24 false]

/-- A brace in a string is passed over, and neither the regular expression nor the comment holds
anything that the scan would stop at. -/
theorem tokenize_substitution_call :
    tokenize "f(/a+/, '\x7d', \x7b\x7d) // done" = .ok commentedCall ∧
    tokenize ("`$\x7b" ++ "f(/a+/, '\x7d', \x7b\x7d) // done" ++ "\n\x7d`") =
      .ok [⟨.template, "`$\x7b" ++ "f(/a+/, '\x7d', \x7b\x7d) // done" ++ "\n\x7d`",
        ⟨0, 30⟩, false⟩, .atEnd 30 false] := by
  have tokenized : tokenize "f(/a+/, '\x7d', \x7b\x7d) // done" = .ok commentedCall := by
    decide +kernel
  have blanks :
      ∀ gap ∈ Lexer.gaps 0 "f(/a+/, '\x7d', \x7b\x7d) // done".toList commentedCall.dropLast,
        gap.all fun c => c ∉ '\x7b' :: '\x7d' :: Lexer.quotes := by decide
  have regexes : ∀ token ∈ commentedCall, token.kind = .regex →
      token.value.toList.all fun c => c ∉ '\x7b' :: '\x7d' :: Lexer.quotes := by decide
  exact ⟨tokenized, tokenize_substitution tokenized
    (fun gap member => Lexer.inert_of_plain (List.all_iff_forall_prop.mp (blanks gap member)))
    (fun token member kind =>
      Lexer.inert_of_plain (List.all_iff_forall_prop.mp (regexes token member kind)))⟩

/-- A quote in a regular expression is none on its own, but the scan of a substitution takes it for
the start of a string. -/
theorem not_tokenized_quote :
    tokenize "/\"/" = .ok [⟨.regex, "/\"/", ⟨0, 3⟩, false⟩, .atEnd 3 false] ∧
    tokenize ("`$\x7b" ++ "/\"/" ++ "\n\x7d`") = .error ⟨.unterminatedString, 4⟩ := by
  decide +kernel

end SourceCanvas
