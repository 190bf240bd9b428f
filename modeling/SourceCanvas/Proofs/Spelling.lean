import SourceCanvas.Proofs.Lexemes
import SourceCanvas.Proofs.Lossless

/-!
# What texts spell

The lexemes of a text are its tokens without their places. `Spells` tells which lexemes a text has:
blanks and comments may be put before them, and so may a lexeme that is read where it stands. What
lies before a closing brace spells the tokens that have been read there (`Reads.spells`). Read on
its own, it has these tokens again (`contents_of_spells`): whether brackets match is a matter of the
lexemes and not of their places.
-/

namespace SourceCanvas

/-- A token by what it says: its kind and its text. -/
def Token.lexeme (token : Token) : TokenKind × String := (token.kind, token.value)

namespace Lexer

open SourceCanvas.Text (isBlank)

/-- Whether a solidus behind a lexeme starts a regular expression. -/
def allows (lexeme : TokenKind × String) : Bool :=
  regexAllowed (some ⟨lexeme.1, lexeme.2, ⟨0, 0⟩, false⟩)

/-- A text spells lexemes: they follow each other with blanks and comments before, between and
behind them. -/
inductive Spells : Bool → List Char → List (TokenKind × String) → Prop where
  | ended {allowed} : Spells allowed [] []
  | space {allowed c text lexemes} (space : isSpace c = true)
      (later : Spells allowed text lexemes) : Spells allowed (c :: text) lexemes
  | line {allowed run text lexemes} (inLine : '\n' ∉ run)
      (ends : ∀ c, text.head? = some c → c = '\n') (later : Spells allowed text lexemes) :
      Spells allowed ('/' :: '/' :: run ++ text) lexemes
  | block {allowed inner text lexemes} (closed : ¬['*', '/'] <:+: inner)
      (later : Spells allowed text lexemes) :
      Spells allowed ('/' :: '*' :: inner ++ '*' :: '/' :: text) lexemes
  | lexeme {allowed kind first run text lexemes}
      (starts : StartsWith allowed kind (first :: run) text) (blank : isBlank first = false)
      (blank' : ∃ c, (first :: run).getLast? = some c ∧ isBlank c = false)
      (later : Spells (allows (kind, String.ofList (first :: run))) text lexemes) :
      Spells allowed (first :: run ++ text) ((kind, String.ofList (first :: run)) :: lexemes)

/-- Among lexemes that follow a given one each solidus that is no regular expression stands where
none could start. -/
def Settled : Bool → List (TokenKind × String) → Prop
  | _, [] => True
  | allowed, lexeme :: others =>
    (lexeme.1 = .punctuator → lexeme.2.toList.head? = some '/' → allowed = false) ∧
      Settled (allows lexeme) others

variable {allowed : Bool} {text after : List Char} {lexemes : List (TokenKind × String)}
  {previous : Option Token} {newline : Bool} {offset : Nat} {tokens : List Token}
  {outcome : Except LexicalError Bool}

theorem exists_regexAllowed (allowed : Bool) : ∃ previous, regexAllowed previous = allowed := by
  cases allowed with
  | true => exact ⟨none, rfl⟩
  | false => exact ⟨some (.atEnd 0 false), rfl⟩

/-- Of what lies behind a lexeme only the chunk counts. -/
theorem StartsWith.congr {kind : TokenKind} {first : Char} {run after' : List Char}
    (starts : StartsWith allowed kind (first :: run) after)
    (settled : first = '/' → kind = .punctuator → allowed = false)
    (same : chunk after = chunk after') :
    StartsWith allowed kind (first :: run) after' := by
  obtain ⟨previous, rfl⟩ := exists_regexAllowed allowed
  obtain ⟨first', rest, parts, found⟩ := starts previous 0 rfl
  obtain ⟨rfl, rfl⟩ := List.cons.inj parts
  obtain ⟨-, run', behind, same', length, -, again⟩ := stands_of_piece found settled
  obtain ⟨rfl, rfl⟩ := List.append_inj same' (Nat.succ.inj length)
  exact again after' same

/-! ## From tokens -/

/-- Reading goes on behind a token at the offset where it stops. -/
theorem Reads.behind {before behind : List Token} {token : Token}
    (reads : Reads previous newline offset text tokens outcome)
    (parts : tokens = before ++ token :: behind) :
    ∃ front rest, text = front ++ rest ∧ offset + front.length = token.stop ∧
      Reads (some token) false token.stop rest behind outcome := by
  induction reads generalizing before with
  | ended => simp at parts
  | stuck => simp at parts
  | @gap previous newline offset first rest run after newline' tokens outcome same found later ih =>
    obtain ⟨front, rest', rfl, place, reads⟩ := ih parts
    refine ⟨run ++ front, rest', ?_, ?_, reads⟩
    · rw [same, List.append_assoc]
    · rw [List.length_append]
      omega
  | @lexeme previous newline offset first rest run after kind tokens outcome same found later ih =>
    cases before with
    | nil =>
      obtain ⟨rfl, rfl⟩ := List.cons.inj parts
      exact ⟨run, after, same, rfl, later⟩
    | cons head before =>
      obtain ⟨-, parts⟩ := List.cons.inj parts
      obtain ⟨front, rest', rfl, place, reads⟩ := ih parts
      refine ⟨run ++ front, rest', ?_, ?_, reads⟩
      · rw [same, List.append_assoc]
      · rw [List.length_append]
        omega

/-- What a token says is found in the text. -/
theorem Reads.infix (reads : Reads previous newline offset text tokens outcome) :
    ∀ token ∈ tokens, token.value.toList <:+: text := by
  induction reads with
  | ended => exact nofun
  | stuck => exact nofun
  | gap parts found later ih =>
    intro token member
    rw [parts]
    exact (ih token member).trans (List.suffix_append ..).isInfix
  | lexeme parts found later ih =>
    intro token member
    rw [parts]
    rcases List.mem_cons.mp member with rfl | member
    · rw [String.toList_ofList]
      exact (List.prefix_append ..).isInfix
    · exact (ih token member).trans (List.suffix_append ..).isInfix

theorem Spells.filler {filler : Filler} (ends : filler.EndsBefore (text ++ after))
    (spells : Spells allowed text lexemes) : Spells allowed (filler.chars ++ text) lexemes := by
  cases filler with
  | blanks run =>
    obtain ⟨-, spaces, -⟩ := ends
    rw [Filler.chars]
    induction run with
    | nil => exact spells
    | cons c run ih =>
      refine .space (spaces c (List.mem_cons_self ..)) (ih fun d member => ?_)
      exact spaces d (List.mem_cons_of_mem c member)
  | lineComment run =>
    obtain ⟨inLine, ends⟩ := ends
    refine .line inLine (fun c head => ends c ?_) spells
    rw [List.head?_append, head]
    rfl
  | blockComment inner =>
    rw [Filler.chars, List.append_assoc]
    exact .block ends spells

theorem Reads.spells (reads : Reads previous newline offset text tokens outcome)
    {inner : List Token} {closer : Token} {others : List Token}
    (parts : tokens = inner ++ closer :: others)
    (brace : closer.value = "\x7d")
    (settled : Settled (regexAllowed previous) (inner.map Token.lexeme)) :
    ∃ mid post, text = mid ++ '\x7d' :: post ∧ offset + mid.length = closer.start ∧
      Spells (regexAllowed previous) mid (inner.map Token.lexeme) := by
  induction reads generalizing inner with
  | ended => simp at parts
  | stuck => simp at parts
  | @gap previous newline offset first rest run behind _ tokens outcome same found later ih =>
    obtain ⟨mid, post, rfl, place, spells⟩ := ih parts settled
    obtain ⟨filler, behind', same', length, ends, -⟩ := filler_of_piece found
    obtain ⟨rfl, rfl⟩ := List.append_inj (same.symm.trans same') length
    refine ⟨filler.chars ++ mid, post, ?_, ?_, spells.filler ends⟩
    · rw [same, List.append_assoc]
    · rw [List.length_append]
      omega
  | @lexeme previous newline offset first rest run behind kind tokens outcome same found later ih =>
    cases inner with
    | nil =>
      obtain ⟨rfl, rfl⟩ := List.cons.inj parts
      have single : run = ['\x7d'] := by
        rw [← String.toList_ofList (l := run)]
        exact congrArg String.toList brace
      subst single
      exact ⟨[], behind, same, rfl, .ended⟩
    | cons token inner =>
      obtain ⟨rfl, parts'⟩ := List.cons.inj parts
      obtain ⟨mid, post, rfl, place, spells⟩ := ih parts' settled.2
      have filled : run ≠ [] := List.ne_nil_of_length_pos (length_pos_of_piece found)
      obtain ⟨_, run, rfl⟩ := List.exists_cons_of_ne_nil filled
      obtain ⟨rfl, rfl⟩ := List.cons.inj same
      have solidus (solidus : first = '/') (punctuator : kind = .punctuator) :
          regexAllowed previous = false := by
        refine settled.1 punctuator ?_
        show (String.ofList (first :: run)).toList.head? = some '/'
        rw [String.toList_ofList, solidus]
        rfl
      obtain ⟨blank, run', behind', same, length, last, starts⟩ := stands_of_piece found solidus
      obtain ⟨rfl, rfl⟩ : run = run' ∧ mid ++ '\x7d' :: post = behind' :=
        List.append_inj same (Nat.succ.inj length)
      refine ⟨first :: run ++ mid, post, by simp, ?_, ?_⟩
      · rw [List.length_append]
        omega
      · -- the brace ends the chunk behind the lexeme, so it may as well be the end of the text
        exact .lexeme (starts mid (chunk_append_of_ends (by decide) mid post)) blank last spells

/-! ## Back to tokens -/

theorem piece_space {c : Char} (space : isSpace c = true) (previous : Option Token) (offset : Nat)
    (text : List Char) : piece previous offset c text =
      .ok (.gap (c :: text.takeWhile isSpace).length
        ((c :: text.takeWhile isSpace).any isNewline)) := by
  rw [piece, if_pos space]
  simp [space]

theorem piece_line {run : List Char} (inLine : '\n' ∉ run)
    (ends : ∀ c, text.head? = some c → c = '\n') (previous : Option Token) (offset : Nat) :
    piece previous offset '/' ('/' :: (run ++ text)) =
      .ok (.gap ('/' :: '/' :: run).length false) := by
  have taken : ('/' :: '/' :: (run ++ text)).takeWhile (· ≠ '\n') = '/' :: '/' :: run := by
    have inside : ∀ c ∈ run, decide (c ≠ '\n') = true := fun c member => by
      simpa using fun same : c = '\n' => inLine (same ▸ member)
    have behind : text.takeWhile (· ≠ '\n') = [] := by
      cases text with
      | nil => rfl
      | cons c text => simp [ends c rfl]
    rw [List.takeWhile_cons_of_pos (by decide), List.takeWhile_cons_of_pos (by decide),
      List.takeWhile_append_of_pos inside, behind, List.append_nil]
  rw [piece, if_neg (by decide), if_pos (isPrefixOf_lineComment.mpr ⟨run ++ text, rfl⟩)]
  exact congrArg (fun run : List Char => Except.ok (Piece.gap run.length false)) taken

theorem commentRest_append {inner : List Char} (closed : ¬['*', '/'] <:+: inner)
    (text : List Char) :
    commentRest (inner ++ '*' :: '/' :: text) = some (inner.length + 2, inner.contains '\n') := by
  induction inner with
  | nil => rfl
  | cons c inner ih =>
    rw [List.infix_cons_iff, not_or] at closed
    rw [List.cons_append, commentRest.eq_def]
    split
    · next same => cases same
    · next same =>
      obtain ⟨rfl, same'⟩ := List.cons.inj same
      cases inner with
      | nil => cases same'
      | cons d inner =>
        obtain ⟨rfl, -⟩ := List.cons.inj same'
        exact absurd ⟨inner, rfl⟩ closed.1
    · next same =>
      obtain ⟨rfl, rfl⟩ := List.cons.inj same
      rw [ih closed.2]
      simp [eq_comm]

theorem piece_block {inner : List Char} (closed : ¬['*', '/'] <:+: inner)
    (previous : Option Token) (offset : Nat) (text : List Char) :
    piece previous offset '/' ('*' :: (inner ++ '*' :: '/' :: text)) =
      .ok (.gap ('/' :: '*' :: inner ++ ['*', '/']).length (inner.contains '\n')) := by
  have opened := isPrefixOf_blockComment.mpr ⟨inner ++ '*' :: '/' :: text, rfl⟩
  rw [piece, if_neg (by decide), if_neg (by simp), if_pos opened, List.drop_succ_cons,
    List.drop_succ_cons, List.drop_zero, commentRest_append closed]
  simp

/-- A blank before a text is a gap, or makes the gap at its start longer. -/
theorem Reads.space {c : Char} (space : isSpace c = true)
    (reads : ∀ newline offset, ∃ tokens last, Reads previous newline offset text tokens (.ok last) ∧
      tokens.map Token.lexeme = lexemes) (newline : Bool) (offset : Nat) :
    ∃ tokens last, Reads previous newline offset (c :: text) tokens (.ok last) ∧
      tokens.map Token.lexeme = lexemes := by
  have parts : c :: text = (c :: text.takeWhile isSpace) ++ text.dropWhile isSpace := by
    rw [List.cons_append, List.takeWhile_append_dropWhile]
  obtain ⟨tokens, last, reads, same⟩ := reads (newline || isNewline c) (offset + 1)
  refine ⟨tokens, last, .gap parts (piece_space space previous offset text) ?_, same⟩
  rw [List.any_cons, ← Bool.or_assoc, List.length_cons, Nat.add_comm _ 1, ← Nat.add_assoc]
  by_cases more : ∃ d behind, text = d :: behind ∧ isSpace d = true
  · -- the gap that is read there and the blank before it make one gap
    obtain ⟨d, behind, rfl, space'⟩ := more
    have found := piece_space space' previous (offset + 1) behind
    cases reads with
    | @gap _ _ _ _ _ run behind' _ _ _ parts' found' later =>
      obtain ⟨length, rfl⟩ : (d :: behind.takeWhile isSpace).length = run.length ∧
          (d :: behind.takeWhile isSpace).any isNewline = _ := by
        rw [found] at found'
        simpa using found'
      have parts : d :: behind = (d :: behind.takeWhile isSpace) ++ behind.dropWhile isSpace := by
        rw [List.cons_append, List.takeWhile_append_dropWhile]
      obtain ⟨rfl, rfl⟩ := List.append_inj (parts.symm.trans parts') length
      rw [List.takeWhile_cons_of_pos space', List.dropWhile_cons_of_pos space']
      exact later
    | lexeme parts' found' later =>
      rw [found] at found'
      cases found'
  · have stays : text.takeWhile isSpace = [] ∧ text.dropWhile isSpace = text := by
      cases text with
      | nil => exact ⟨rfl, rfl⟩
      | cons d behind =>
        have other : ¬isSpace d = true := fun space => more ⟨d, behind, rfl, space⟩
        exact ⟨List.takeWhile_cons_of_neg other, List.dropWhile_cons_of_neg other⟩
    rw [stays.1, stays.2, List.any_nil, Bool.or_false]
    exact reads

theorem Spells.reads (spells : Spells allowed text lexemes) (same : regexAllowed previous = allowed)
    (newline : Bool) (offset : Nat) : ∃ tokens last,
      Reads previous newline offset text tokens (.ok last) ∧ tokens.map Token.lexeme = lexemes := by
  induction spells generalizing previous newline offset with
  | ended => exact ⟨[], newline, .ended, rfl⟩
  | space space later ih => exact Reads.space space (ih same) newline offset
  | @line _ run text _ inLine ends later ih =>
    obtain ⟨tokens, last, reads, lexemes⟩ :=
      ih same (newline || false) (offset + ('/' :: '/' :: run).length)
    exact ⟨tokens, last, .gap rfl (piece_line inLine ends previous offset) reads, lexemes⟩
  | @block _ inner text _ closed later ih =>
    obtain ⟨tokens, last, reads, lexemes⟩ := ih same (newline || inner.contains '\n')
      (offset + ('/' :: '*' :: inner ++ ['*', '/']).length)
    refine ⟨tokens, last, .gap ?_ (piece_block closed previous offset text) reads, lexemes⟩
    simp
  | @lexeme _ kind first run text _ starts blank last later ih =>
    obtain ⟨first', rest, parts, found⟩ := starts previous offset same
    obtain ⟨rfl, rfl⟩ := List.cons.inj parts
    obtain ⟨tokens, last, reads, same⟩ :=
      @ih (some ⟨kind, _, ⟨offset, offset + (first :: run).length⟩, newline⟩) rfl false
        (offset + (first :: run).length)
    exact ⟨_, last, .lexeme rfl found reads, by rw [List.map_cons, same]; rfl⟩

/-! ## Texts on their own -/

theorem isOpener_of_lexeme {token token' : Token} (same : token.lexeme = token'.lexeme) :
    token.isOpener = token'.isOpener ∧ token.isCloser = token'.isCloser := by
  obtain ⟨kind, value⟩ := Prod.mk.inj same
  simp [Token.isOpener, Token.isCloser, Token.isPunctIn, kind, value]

/-- Whether brackets match is a matter of the lexemes. -/
theorem openBrackets_lexeme {opened opened' tokens tokens' left : List Token}
    (same : opened.map Token.lexeme = opened'.map Token.lexeme)
    (same' : tokens.map Token.lexeme = tokens'.map Token.lexeme)
    (matched : openBrackets opened tokens = .ok left) :
    ∃ left', openBrackets opened' tokens' = .ok left' ∧
      left.map Token.lexeme = left'.map Token.lexeme := by
  induction tokens generalizing opened opened' tokens' with
  | nil =>
    obtain rfl : tokens' = [] := by simpa using same'.symm
    cases matched
    exact ⟨opened', rfl, same⟩
  | cons token tokens ih =>
    rw [List.map_cons] at same'
    obtain ⟨token', tokens', rfl, first, others⟩ := List.map_eq_cons_iff.mp same'.symm
    obtain ⟨opens, closes⟩ := isOpener_of_lexeme first
    rw [openBrackets.eq_def] at matched ⊢
    simp only [opens, closes] at matched ⊢
    split at matched
    · next opener =>
      rw [if_pos opener]
      refine ih ?_ others.symm matched
      rw [List.map_cons, List.map_cons, first, same]
    next opener =>
    rw [if_neg opener]
    split at matched
    · next closer =>
      rw [if_pos closer]
      cases opened with
      | nil => cases matched
      | cons bracket outer =>
        obtain ⟨bracket', outer', rfl, inner, outer⟩ := List.map_eq_cons_iff.mp same.symm
        simp only at matched ⊢
        rw [(Prod.mk.inj first).2, (Prod.mk.inj inner).2]
        split at matched
        · next closes =>
          rw [if_pos closes]
          exact ih outer.symm others.symm matched
        · cases matched
    · next closer =>
      rw [if_neg closer]
      exact ih same others.symm matched

end Lexer

/-- The tokens of a text by what they say. -/
def contents (text : String) : Except LexicalError (List (TokenKind × String)) :=
  (tokenize text).map fun tokens => tokens.dropLast.map Token.lexeme

/-- A text has the tokens that it spells, if their brackets match. -/
theorem contents_of_spells {text : String} {lexemes : List (TokenKind × String)}
    (spells : Lexer.Spells true text.toList lexemes) {tokens : List Token}
    (same : tokens.map Token.lexeme = lexemes) (matched : Lexer.openBrackets [] tokens = .ok []) :
    contents text = .ok lexemes := by
  have start : Lexer.regexAllowed none = true := rfl
  obtain ⟨found, last, reads, same'⟩ := spells.reads start false 0
  have closed : ([] : List Token).map Token.lexeme = [].map Token.lexeme := rfl
  obtain ⟨left, matched, none⟩ :=
    Lexer.openBrackets_lexeme closed (same.trans same'.symm) matched
  obtain rfl : left = [] := by simpa using none.symm
  rw [contents, tokenize, Lexer.tokenize, Lexer.pieces_of_reads reads (Nat.le_refl _)]
  simp only [matched]
  rw [Except.map, List.dropLast_concat, same']

end SourceCanvas
