import SourceCanvas.Proofs.TokenLayout

/-!
# Runs of pieces

`Lexer.pieces` counts down fuel. `Lexer.Reads` says without it how the pieces of a text follow each
other: each takes the first characters of what is left, at least one, and the reading ends with the
text or at a piece that is malformed. Fuel for every character is enough (`reads_pieces`), so all
that is said about the tokens of a text is proved by induction on such a run.
-/

namespace SourceCanvas

namespace Lexer

/-! ## Comments -/

theorem isPrefixOf_lineComment {text : List Char} :
    "//".toList.isPrefixOf text = true ↔ ∃ after, text = '/' :: '/' :: after := by
  rw [List.isPrefixOf_iff_prefix]
  exact ⟨fun ⟨after, same⟩ => ⟨after, same.symm⟩, fun ⟨after, same⟩ => ⟨after, same.symm⟩⟩

theorem isPrefixOf_blockComment {text : List Char} :
    "/*".toList.isPrefixOf text = true ↔ ∃ after, text = '/' :: '*' :: after := by
  rw [List.isPrefixOf_iff_prefix]
  exact ⟨fun ⟨after, same⟩ => ⟨after, same.symm⟩, fun ⟨after, same⟩ => ⟨after, same.symm⟩⟩

/-- What a block comment is made of: a text without a closing mark, and that mark. -/
theorem commentRest_eq_some {text : List Char} {length : Nat} {newline : Bool}
    (found : commentRest text = some (length, newline)) :
    ∃ inner after, text = inner ++ '*' :: '/' :: after ∧ length = inner.length + 2 ∧
      ¬['*', '/'] <:+: inner ∧ newline = inner.contains '\n' := by
  induction text generalizing length newline with
  | nil => simp [commentRest] at found
  | cons c rest ih =>
    rw [commentRest.eq_def] at found
    split at found
    · cases found
    · next after heq =>
      cases heq
      obtain ⟨rfl, rfl⟩ := Prod.mk.inj (Option.some.inj found)
      exact ⟨[], after, rfl, rfl, by simp, rfl⟩
    · next c' rest' open' heq =>
      cases heq
      obtain ⟨⟨length', newline'⟩, found', same⟩ := Option.map_eq_some_iff.mp found
      obtain ⟨rfl, rfl⟩ := Prod.mk.inj same
      obtain ⟨inner, after, rfl, rfl, closed, rfl⟩ := ih found'
      refine ⟨c :: inner, after, rfl, by simp, ?_, by simp [eq_comm]⟩
      rw [List.infix_cons_iff]
      rintro (⟨behind, starts⟩ | inside)
      · -- a mark that starts at the first character would have closed the comment there
        obtain ⟨rfl, slash⟩ := List.cons.inj starts
        cases inner with
        | nil => cases slash
        | cons d inner =>
          obtain ⟨rfl, -⟩ := List.cons.inj slash
          exact open' (inner ++ '*' :: '/' :: after) rfl rfl
      · exact closed inside

/-! ## Runs -/

/-- How the pieces of a text that lies at an offset follow each other, after a token and whether a
line break comes behind it: the tokens among them, and what stopped the reading. -/
inductive Reads : Option Token → Bool → Nat → List Char → List Token →
    Except LexicalError Bool → Prop where
  | ended {previous newline offset} : Reads previous newline offset [] [] (.ok newline)
  | stuck {previous newline offset first rest error}
      (found : piece previous offset first rest = .error error) :
      Reads previous newline offset (first :: rest) [] (.error error)
  | gap {previous newline offset first rest run after newline' tokens outcome}
      (parts : first :: rest = run ++ after)
      (found : piece previous offset first rest = .ok (.gap run.length newline'))
      (later : Reads previous (newline || newline') (offset + run.length) after tokens outcome) :
      Reads previous newline offset (first :: rest) tokens outcome
  | lexeme {previous newline offset first rest run after kind tokens outcome}
      (parts : first :: rest = run ++ after)
      (found : piece previous offset first rest = .ok (.lexeme run.length kind))
      (later : Reads
        (some ⟨kind, String.ofList run, ⟨offset, offset + run.length⟩, newline⟩) false
        (offset + run.length) after tokens outcome) :
      Reads previous newline offset (first :: rest)
        (⟨kind, String.ofList run, ⟨offset, offset + run.length⟩, newline⟩ :: tokens) outcome

/-- A text that is one lexeme. -/
theorem Reads.alone {previous : Option Token} {newline : Bool} {offset : Nat} {first : Char}
    {rest : List Char} {kind : TokenKind}
    (found : piece previous offset first rest = .ok (.lexeme (first :: rest).length kind)) :
    Reads previous newline offset (first :: rest)
      [⟨kind, String.ofList (first :: rest), ⟨offset, offset + (first :: rest).length⟩, newline⟩]
      (.ok false) :=
  .lexeme (List.append_nil _).symm found .ended

/-- The length of a piece. -/
def Piece.length : Piece → Nat
  | .gap length _ => length
  | .lexeme length _ => length

variable {previous : Option Token} {newline : Bool} {offset fuel : Nat} {first : Char}
  {rest text : List Char} {found : Piece}

theorem length_pos_of_piece (read : piece previous offset first rest = .ok found) :
    0 < found.length := by
  have fits := fitsIn_of_piece read
  cases found with
  | lexeme length kind => exact fits.1
  | gap length newline =>
    rw [piece] at read
    split at read
    · next space =>
      cases read
      simp [Piece.length, space]
    split at read
    · next opened =>
      cases read
      obtain ⟨after, same⟩ := isPrefixOf_lineComment.mp opened
      obtain ⟨rfl, rfl⟩ := List.cons.inj same
      simp [Piece.length]
    split at read
    · split at read
      · cases read
        simp [Piece.length]
      · cases read
    split at read
    · obtain ⟨length, same, -⟩ := framed_lexeme read
      cases same
    split at read
    · obtain ⟨length, same, -⟩ := framed_lexeme read
      cases same
    split at read
    · split at read <;> cases read
    · obtain ⟨length, kind, same, -⟩ := plainPiece_lexeme read
      cases same

theorem length_le_of_piece (read : piece previous offset first rest = .ok found) :
    found.length ≤ (first :: rest).length := by
  have fits := fitsIn_of_piece read
  cases found with
  | gap length newline => exact fits
  | lexeme length kind => exact fits.2

/-- A piece takes the first characters of a text and leaves fewer than there were. -/
theorem parts_of_piece (read : piece previous offset first rest = .ok found) :
    ∃ run after, first :: rest = run ++ after ∧ found.length = run.length ∧
      after.length ≤ rest.length := by
  have positive := length_pos_of_piece read
  have fits := length_le_of_piece read
  refine ⟨(first :: rest).take found.length, (first :: rest).drop found.length,
    (List.take_append_drop ..).symm, ?_, ?_⟩
  · rw [List.length_take]
    omega
  · rw [List.length_drop, List.length_cons]
    omega

/-- Fuel for every character is enough. -/
theorem reads_pieces (previous : Option Token) (newline : Bool) (offset : Nat)
    (enough : text.length ≤ fuel) :
    Reads previous newline offset text (pieces previous newline fuel offset text).1
      (pieces previous newline fuel offset text).2 := by
  induction fuel generalizing previous newline offset text with
  | zero =>
    obtain rfl : text = [] := List.length_eq_zero_iff.mp (by omega)
    exact .ended
  | succ fuel ih =>
    cases text with
    | nil => exact .ended
    | cons first rest =>
      rw [pieces]
      cases read : piece previous offset first rest with
      | error error => exact .stuck read
      | ok found =>
        obtain ⟨run, after, parts, same, shorter⟩ := parts_of_piece read
        have taken : (first :: rest).take run.length = run := by rw [parts, List.take_left]
        have dropped : (first :: rest).drop run.length = after := by rw [parts, List.drop_left]
        have enough : after.length ≤ fuel := by
          rw [List.length_cons] at enough
          omega
        cases found with
        | gap length newline' =>
          obtain rfl : length = run.length := same
          simp only [dropped]
          exact .gap parts read (ih _ _ _ enough)
        | lexeme length kind =>
          obtain rfl : length = run.length := same
          simp only [taken, dropped]
          exact .lexeme parts read (ih _ _ _ enough)

/-- A run is what is read, with fuel for every character. -/
theorem pieces_of_reads {tokens : List Token} {outcome : Except LexicalError Bool}
    (reads : Reads previous newline offset text tokens outcome) (enough : text.length ≤ fuel) :
    pieces previous newline fuel offset text = (tokens, outcome) := by
  have behind {run after : List Char} {fuel : Nat} (filled : 0 < run.length)
      (enough : (run ++ after).length ≤ fuel + 1) : after.length ≤ fuel := by
    rw [List.length_append] at enough
    omega
  induction reads generalizing fuel with
  | ended => cases fuel <;> rfl
  | stuck found =>
    obtain ⟨fuel, rfl⟩ :=
      Nat.exists_eq_succ_of_ne_zero (Nat.ne_zero_of_lt (Nat.lt_of_succ_le enough))
    rw [pieces, found]
  | gap parts found later ih =>
    obtain ⟨fuel, rfl⟩ :=
      Nat.exists_eq_succ_of_ne_zero (Nat.ne_zero_of_lt (Nat.lt_of_succ_le enough))
    rw [parts] at enough
    rw [pieces, found]
    simp only [parts, List.drop_left]
    exact ih (behind (length_pos_of_piece found) enough)
  | lexeme parts found later ih =>
    obtain ⟨fuel, rfl⟩ :=
      Nat.exists_eq_succ_of_ne_zero (Nat.ne_zero_of_lt (Nat.lt_of_succ_le enough))
    rw [parts] at enough
    rw [pieces, found]
    simp only [parts, List.drop_left, List.take_left,
      ih (behind (length_pos_of_piece found) enough)]

end Lexer

/-- The tokens of a text come from a run over the whole text that ends well, and their brackets
match. -/
theorem reads_of_tokenize {text : String} {tokens : List Token}
    (read : tokenize text = .ok tokens) :
    ∃ before newline, tokens = before ++ [.atEnd text.length newline] ∧
      Lexer.Reads none false 0 text.toList before (.ok newline) ∧
      Lexer.openBrackets [] before = .ok [] := by
  rw [tokenize, Lexer.tokenize] at read
  have run := Lexer.reads_pieces none false 0 (Nat.le_refl text.toList.length)
  generalize Lexer.pieces none false text.toList.length 0 text.toList = result at read run
  obtain ⟨found, outcome⟩ := result
  simp only at read run
  split at read
  · cases read
  · next matched =>
    split at read
    · cases read
    · cases read
    · next newline =>
      cases read
      exact ⟨found, newline, by rw [String.length_toList], run, matched⟩

end SourceCanvas
