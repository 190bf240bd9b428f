import SourceCanvas.Proofs.Brackets
import SourceCanvas.Proofs.Lexemes
import SourceCanvas.Text.Quoted

/-!
# Quoted texts

Quoting a text and reading a string go through a text each on its own, and both take a reverse
solidus with the character behind it. They stay in step: what quoting writes goes on to its last
quote and no further (`fills_escape`), and whatever goes on to a quote in this way is left as it is
by quoting (`escape_of_fills`). So a quoted text is one token, and a token that starts with a double
quote is the quoted text of its own contents (`tokenize_quote`).
-/

namespace SourceCanvas

open SourceCanvas.Text (escape quote quoteChars unquote unquoteChars)

/-! ## Contents of strings -/

namespace Text

theorem escape_pair (c : Char) (rest : List Char) :
    escape ('\\' :: c :: rest) = '\\' :: c :: escape rest := by
  rw [escape]

theorem escape_plain {c : Char} (plain : c ≠ '\\') (other : c ≠ '"') (inLine : c ≠ '\n')
    (rest : List Char) : escape (c :: rest) = c :: escape rest := by
  simp [escape, plain]

end Text

namespace Lexer

variable {run contents : List Char} {text after : List Char} {previous : Option Token}
  {newline : Bool} {offset : Nat} {tokens : List Token} {outcome : Except LexicalError Bool}

/-- Escaped contents go on to the quote behind them. -/
theorem fills_escape (contents : List Char) : Fills [.quoted '"'] (escape contents ++ ['"']) := by
  have closed : Fills [.quoted '"'] ['"'] := .quotedEnd (by decide) .done
  fun_induction escape contents with
  | case1 => exact closed
  | case2 =>
    -- a reverse solidus with nothing behind it is paired with another one
    exact .quotedEscape '\\' closed
  | case3 c rest ih => exact .quotedEscape c ih
  | case4 rest ih => exact .quotedEscape '"' ih
  | case5 rest ih => exact .quotedEscape 'n' ih
  | case6 c rest alone pair other inLine ih =>
    have plain : c ≠ '\\' := by
      rintro rfl
      cases rest with
      | nil => exact alone rfl rfl
      | cons d rest => exact pair d rest rfl rfl
    exact .quotedChar plain other inLine ih

/-- What goes on to a quote has contents that need no more escapes. -/
theorem escape_of_fills (fills : Fills [.quoted '"'] run) :
    ∃ contents, run = contents ++ ['"'] ∧ escape contents = contents := by
  generalize opened : [Enclosure.quoted '"'] = enclosures at fills
  induction fills with
  | quotedEscape c later ih =>
    obtain ⟨contents, rfl, same⟩ := ih opened
    exact ⟨'\\' :: c :: contents, rfl, by rw [Text.escape_pair, same]⟩
  | quotedEnd plain later =>
    cases opened
    cases later
    exact ⟨[], rfl, rfl⟩
  | @quotedChar mark outer run c plain other inLine later ih =>
    obtain ⟨contents, rfl, same⟩ := ih opened
    cases opened
    exact ⟨c :: contents, rfl, by rw [Text.escape_plain plain other inLine, same]⟩
  | _ => cases opened

theorem quoteChars_of_fills (fills : Fills [.quoted '"'] run) :
    quoteChars (unquoteChars ('"' :: run)) = '"' :: run := by
  obtain ⟨contents, rfl, same⟩ := escape_of_fills fills
  have inside : unquoteChars ('"' :: (contents ++ ['"'])) = contents := by simp [unquoteChars]
  rw [inside, quoteChars, same, List.cons_append]

/-! ## Tokens -/

/-- A text that starts with a double quote is read as a string. -/
theorem piece_quote (previous : Option Token) (offset : Nat) (rest : List Char) :
    piece previous offset '"' rest = framed .string offset (.quoted '"' offset) rest := by
  have bare : Bare '"' rest := ⟨by decide, by simp, by simp⟩
  rw [bare.piece]
  simp

/-- What goes on to a quote is one token. -/
theorem reads_quoted (fills : Fills [.quoted '"'] run) :
    Reads none false 0 ('"' :: run)
      [⟨.string, String.ofList ('"' :: run), ⟨0, ('"' :: run).length⟩, false⟩] (.ok false) := by
  have encloses : (Frame.quoted '"' 0).enclosure = .quoted '"' := rfl
  rw [← encloses] at fills
  have whole := fills.framed .string 0 []
  rw [List.append_nil, ← piece_quote none] at whole
  have alone : Reads none false 0 ('"' :: run) _ (.ok false) := Reads.alone whole
  rwa [Nat.zero_add] at alone

/-- A token that starts with a double quote is a string, and goes on to its last quote. -/
theorem Reads.fills_quoted (reads : Reads previous newline offset text tokens outcome) :
    ∀ token ∈ tokens, ∀ run, token.value.toList = '"' :: run →
      token.kind = .string ∧ Fills [.quoted '"'] run := by
  induction reads with
  | ended => exact nofun
  | stuck => exact nofun
  | gap _ _ _ ih => exact ih
  | @lexeme previous newline offset first rest found after kind tokens outcome parts read _ ih =>
    intro token member run value
    rcases List.mem_cons.mp member with rfl | member
    · -- the token starts where it is read, so a string is read there
      rw [String.toList_ofList] at value
      subst value
      obtain ⟨rfl, rfl⟩ := List.cons.inj parts
      rw [piece_quote] at read
      obtain ⟨rfl, run', after', same, length, fills⟩ := fills_of_framed read
      obtain ⟨rfl, -⟩ := List.append_inj same (Nat.succ.inj length)
      exact ⟨rfl, fills⟩
    · exact ih token member run value

end Lexer

/-- The tokens that are found in a text: all but the one at the end, or those before the first piece
that is malformed. -/
def foundTokens (text : String) : List Token :=
  (Lexer.pieces none false text.toList.length 0 text.toList).1

/-- Where a text has tokens, they are the ones found and one for the end. -/
theorem eq_append_of_tokenize {text : String} {tokens : List Token}
    (read : tokenize text = .ok tokens) :
    ∃ newline, tokens = foundTokens text ++ [.atEnd text.length newline] := by
  obtain ⟨before, newline, rfl, reads, -⟩ := reads_of_tokenize read
  exact ⟨newline, by rw [foundTokens, Lexer.pieces_of_reads reads (Nat.le_refl _)]⟩

/-- **Quoting and reading agree.** A quoted text is one string that takes up the whole of it, and
quoting its contents gives it again. Every token that is found in a text, whether or not the text
has tokens to its end, is a string if it starts with a double quote, and quoting its contents gives
the token again. -/
theorem tokenize_quote :
    (∀ contents : String,
      tokenize (quote contents) =
          .ok [⟨.string, quote contents, ⟨0, (quote contents).length⟩, false⟩,
            .atEnd (quote contents).length false] ∧
        quote (unquote (quote contents)) = quote contents) ∧
    ∀ text,
      (∀ tokens, tokenize text = .ok tokens →
        ∃ newline, tokens = foundTokens text ++ [.atEnd text.length newline]) ∧
      ∀ token ∈ foundTokens text, token.value.toList.head? = some '"' →
        token.kind = .string ∧ quote (unquote token.value) = token.value := by
  have again {literal : String} {run : List Char} (spelled : literal.toList = '"' :: run)
      (fills : Lexer.Fills [.quoted '"'] run) : quote (unquote literal) = literal := by
    rw [quote, unquote, String.toList_ofList, spelled, Lexer.quoteChars_of_fills fills, ← spelled,
      String.ofList_toList]
  constructor
  · intro contents
    have spelled : (quote contents).toList = '"' :: (escape contents.toList ++ ['"']) := by
      rw [quote, String.toList_ofList, quoteChars, List.cons_append]
    have fills := Lexer.fills_escape contents.toList
    refine ⟨?_, again spelled fills⟩
    have whole := Lexer.reads_quoted fills
    rw [← spelled, String.ofList_toList, String.length_toList] at whole
    rw [tokenize_of_pieces (Lexer.pieces_of_reads whole (Nat.le_refl _))]
    rfl
  · intro text
    refine ⟨fun _ => eq_append_of_tokenize, ?_⟩
    intro token member starts
    obtain ⟨run, spelled⟩ := List.head?_eq_some_iff.mp starts
    have reads := Lexer.reads_pieces none false 0 (Nat.le_refl text.toList.length)
    obtain ⟨kind, fills⟩ := reads.fills_quoted token member run spelled
    exact ⟨kind, again spelled fills⟩

/-- A reverse solidus at the end is escaped, one before a line feed is left with it, and the bare
quote between them gets one. -/
theorem tokenize_quote_lone :
    quote "a\\\n\"\\" = "\"a\\\n\\\"\\\\\"" ∧
    tokenize "\"a\\\n\\\"\\\\\"" =
      .ok [⟨.string, "\"a\\\n\\\"\\\\\"", ⟨0, 9⟩, false⟩, .atEnd 9 false] ∧
    ∃ token ∈ foundTokens "f(\"\\\"\" /* open", token.value = "\"\\\"\"" ∧
      token.kind = .string ∧ quote (unquote token.value) = token.value := by
  have quoted : quote "a\\\n\"\\" = "\"a\\\n\\\"\\\\\"" := by decide
  refine ⟨quoted, ?_, ?_⟩
  · have whole := (tokenize_quote.1 "a\\\n\"\\").1
    rwa [quoted] at whole
  · have found : ∃ token ∈ foundTokens "f(\"\\\"\" /* open", token.value = "\"\\\"\"" := by
      decide +kernel
    obtain ⟨token, member, value⟩ := found
    exact ⟨token, member, value, (tokenize_quote.2 _).2 token member (by rw [value]; decide)⟩

end SourceCanvas
