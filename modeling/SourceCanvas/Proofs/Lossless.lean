import SourceCanvas.Proofs.PieceRuns

/-!
# Nothing of a text is lost

What a text holds is in its tokens, or it is filler: blanks and comments. `Filler` says what filler
is without looking at how the text is read, `Gap` what may stand between two tokens, and `Lossless`
that tokens with such gaps between them make up a whole text. That holds of every text that has
tokens, and the error of any other text lies in the text (`accounted_tokenize`).
-/

namespace SourceCanvas

open Lexer (isSpace isNewline Reads piece)

/-! ## Filler -/

/-- What stands in a text and belongs to no token. -/
inductive Filler where
  | blanks (run : List Char)
  | lineComment (text : List Char)
  | blockComment (text : List Char)

namespace Filler

/-- The characters of a filler. -/
def chars : Filler → List Char
  | blanks run => run
  | lineComment text => '/' :: '/' :: text
  | blockComment text => '/' :: '*' :: text ++ ['*', '/']

/-- The characters of fillers that stand one after the other. -/
def written (fillers : List Filler) : List Char := fillers.flatMap chars

@[simp] theorem written_nil : written [] = [] := rfl

@[simp] theorem written_cons (filler : Filler) (others : List Filler) :
    written (filler :: others) = filler.chars ++ written others := rfl

/-- Whether a filler is one before the rest of a text: no more blanks follow a run of blanks, a line
comment goes on to a line feed or the end, and a block comment to the first mark that closes it. -/
def EndsBefore (after : List Char) : Filler → Prop
  | blanks run => run ≠ [] ∧ (∀ c ∈ run, isSpace c = true) ∧
      ∀ c, after.head? = some c → isSpace c = false
  | lineComment text => '\n' ∉ text ∧ ∀ c, after.head? = some c → c = '\n'
  | blockComment text => ¬['*', '/'] <:+: text

/-- Fillers one after the other, before the rest of a text. -/
def AllEndBefore (after : List Char) : List Filler → Prop
  | [] => True
  | filler :: others =>
    filler.EndsBefore (written others ++ after) ∧ AllEndBefore after others

/-- Whether a line ends in fillers: at a line feed anywhere, or at a carriage return between blanks
outside of comments. -/
def BreakLine (fillers : List Filler) : Prop :=
  '\n' ∈ written fillers ∨ ∃ run, blanks run ∈ fillers ∧ '\r' ∈ run

/-- Whether a line ends in a filler, as the reader of a text finds out. -/
def breaksLine : Filler → Bool
  | blanks run => run.any isNewline
  | lineComment _ => false
  | blockComment text => text.contains '\n'

variable {after : List Char} {filler : Filler} {fillers : List Filler}

theorem breakLine_cons :
    BreakLine (filler :: fillers) ↔ BreakLine [filler] ∨ BreakLine fillers := by
  simp only [BreakLine, written_cons, written_nil, List.append_nil, List.mem_append,
    List.mem_cons, List.not_mem_nil, or_false]
  constructor
  · rintro ((first | later) | ⟨run, rfl | later, broken⟩)
    · exact .inl (.inl first)
    · exact .inr (.inl later)
    · exact .inl (.inr ⟨run, rfl, broken⟩)
    · exact .inr (.inr ⟨run, later, broken⟩)
  · rintro ((first | ⟨run, rfl, broken⟩) | (later | ⟨run, later, broken⟩))
    · exact .inl (.inl first)
    · exact .inr ⟨run, .inl rfl, broken⟩
    · exact .inl (.inr later)
    · exact .inr ⟨run, .inr later, broken⟩

theorem breaksLine_iff (ends : filler.EndsBefore after) :
    filler.breaksLine = true ↔ BreakLine [filler] := by
  cases filler with
  | blanks run =>
    simp only [breaksLine, BreakLine, chars, isNewline, List.any_eq_true, Bool.or_eq_true,
      decide_eq_true_eq, written_cons, written_nil, List.append_nil, List.mem_singleton,
      blanks.injEq]
    constructor
    · rintro ⟨c, inside, rfl | rfl⟩
      · exact .inl inside
      · exact .inr ⟨run, rfl, inside⟩
    · rintro (inside | ⟨_, rfl, inside⟩)
      · exact ⟨_, inside, .inl rfl⟩
      · exact ⟨_, inside, .inr rfl⟩
  | lineComment text => simp [breaksLine, BreakLine, chars, ends.1]
  | blockComment text => simp [breaksLine, BreakLine, chars]

theorem any_breaksLine_iff (ends : AllEndBefore after fillers) :
    fillers.any breaksLine = true ↔ BreakLine fillers := by
  induction fillers with
  | nil => simp [BreakLine]
  | cons filler others ih =>
    rw [breakLine_cons, ← breaksLine_iff ends.1, ← ih ends.2, List.any_cons, Bool.or_eq_true]

end Filler

/-! ## Lossless lists of tokens -/

/-- The characters of a text between two offsets are fillers, and a line ends in them or not. -/
def IsGap (text : List Char) (start stop : Nat) (newline : Bool) : Prop :=
  start ≤ stop ∧ stop ≤ text.length ∧
    ∃ fillers, (text.drop start).take (stop - start) = Filler.written fillers ∧
      Filler.AllEndBefore (text.drop stop) fillers ∧
      (newline = true ↔ Filler.BreakLine fillers)

/-- The offset after the last of some tokens that lie behind an offset. -/
def endOf (offset : Nat) (tokens : List Token) : Nat :=
  (tokens.getLast?.map Token.stop).getD offset

theorem endOf_cons (offset : Nat) (token : Token) (tokens : List Token) :
    endOf offset (token :: tokens) = endOf token.stop tokens := by
  cases tokens with
  | nil => rfl
  | cons next others => simp [endOf, List.getLast?_cons]

/-- Tokens with gaps between them that make up a text. -/
structure Lossless (text : List Char) (tokens : List Token) : Prop where
  /-- the last token is an empty one at the end of the text -/
  ended : ∃ before newline, tokens = before ++ [.atEnd text.length newline]
  /-- all others are not empty and hold the text that they stand for -/
  filled : ∀ token ∈ tokens.dropLast, token.kind ≠ .eof ∧ token.start < token.stop ∧
    token.value.toList = (text.drop token.start).take (token.stop - token.start)
  ordered : tokens.Pairwise fun token later => token.stop ≤ later.start
  gaps : ∀ before token after, tokens = before ++ token :: after →
    IsGap text (endOf 0 before) token.start token.newlineBefore

/-- What is said about the tokens of a text, or the error that stands for them. -/
def Accounted (text : List Char) : Except LexicalError (List Token) → Prop
  | .ok tokens => Lossless text tokens
  | .error error => error.offset ≤ text.length

/-! ## Fillers in pieces -/

namespace Lexer

variable {previous : Option Token} {newline newline' : Bool} {offset length : Nat} {first : Char}
  {rest text after : List Char} {kind : TokenKind} {tokens : List Token}
  {outcome : Except LexicalError Bool} {error : LexicalError}

theorem all_of_mem_takeWhile {p : Char → Bool} (text : List Char) :
    ∀ c ∈ text.takeWhile p, p c = true := by
  intro c inside
  have all : (text.takeWhile p).all p = true := List.all_takeWhile
  exact List.all_eq_true.mp all c inside

theorem head_dropWhile {p : Char → Bool} {text : List Char} {c : Char}
    (head : (text.dropWhile p).head? = some c) : p c = false := by
  have := List.head?_dropWhile_not p text
  rw [head] at this
  simpa using this

/-- A gap among the pieces is a filler. -/
theorem filler_of_piece (read : piece previous offset first rest = .ok (.gap length newline)) :
    ∃ (filler : Filler) (after : List Char), first :: rest = filler.chars ++ after ∧
      length = filler.chars.length ∧
      filler.EndsBefore after ∧ filler.breaksLine = newline := by
  rw [piece] at read
  split at read
  · next space =>
    cases read
    refine ⟨.blanks ((first :: rest).takeWhile isSpace), (first :: rest).dropWhile isSpace,
      List.takeWhile_append_dropWhile.symm, rfl, ⟨?_, all_of_mem_takeWhile _, ?_⟩, rfl⟩
    · simp [space]
    · exact fun c head => head_dropWhile head
  split at read
  · next opened =>
    cases read
    obtain ⟨inner, same⟩ := isPrefixOf_lineComment.mp opened
    rw [same]
    refine ⟨.lineComment (inner.takeWhile (· ≠ '\n')), inner.dropWhile (· ≠ '\n'), ?_, ?_,
      ⟨fun inside => ?_, fun c head => ?_⟩, rfl⟩
    · simp only [Filler.chars, List.cons_append, List.takeWhile_append_dropWhile]
    · simp [Filler.chars]
    · simpa using all_of_mem_takeWhile _ _ inside
    · simpa using head_dropWhile head
  split at read
  · next opened =>
    obtain ⟨inner, same⟩ := isPrefixOf_blockComment.mp opened
    rw [same] at read ⊢
    split at read
    · next length' newline' closed =>
      cases read
      obtain ⟨text, after, parts, rfl, fresh, rfl⟩ := commentRest_eq_some closed
      refine ⟨.blockComment text, after, ?_, ?_, fresh, rfl⟩
      · obtain rfl : inner = text ++ '*' :: '/' :: after := parts
        simp [Filler.chars]
      · simp [Filler.chars]
    · cases read
  split at read
  · obtain ⟨length, same, -⟩ := framed_lexeme read
    cases same
  split at read
  · obtain ⟨length, same, -⟩ := framed_lexeme read
    cases same
  split at read
  · split at read <;> cases read
  · obtain ⟨length, kind, same, -⟩ := plainPiece_lexeme read
    cases same

/-- No lexeme ends a text. -/
theorem kind_of_piece (read : piece previous offset first rest = .ok (.lexeme length kind)) :
    kind ≠ .eof := by
  have framed' {kind' : TokenKind} {frame : Frame}
      (read : framed kind' offset frame rest = .ok (.lexeme length kind)) : kind = kind' := by
    obtain ⟨length', same, -⟩ := framed_lexeme read
    cases same
    rfl
  rw [piece] at read
  split at read
  · cases read
  split at read
  · cases read
  split at read
  · split at read <;> cases read
  split at read
  · simp [framed' read]
  split at read
  · simp [framed' read]
  split at read
  · split at read <;> cases read <;> decide
  · rw [plainPiece] at read
    grind

/-! ## Offsets of errors -/

/-- Whether the start of a frame, as far as its error tells it, lies before a bound. -/
def Frame.startsBy (bound : Nat) : Frame → Bool
  | .quoted _ start => start ≤ bound
  | .template start => start ≤ bound
  | .code _ => true

theorem Frame.unterminated_le {frame : Frame} {textEnd bound : Nat}
    (starts : frame.startsBy bound = true) (le : textEnd ≤ bound) :
    (frame.unterminated textEnd).offset ≤ bound := by
  cases frame with
  | quoted mark start => exact of_decide_eq_true starts
  | template start => exact of_decide_eq_true starts
  | code depth => exact le

/-- A scan that fails does so in the text, if all that is open starts there. -/
theorem scanFrames_error {frames : List Frame} {bound : Nat}
    (inside : frames.all (Frame.startsBy bound) = true) (le : offset + text.length ≤ bound)
    (failed : scanFrames offset frames text = .error error) : error.offset ≤ bound := by
  fun_induction scanFrames offset frames text with
  | case2 offset frame frames =>
    cases failed
    rw [List.all_cons, Bool.and_eq_true] at inside
    exact Frame.unterminated_le inside.1 le
  | _ => grind [Frame.startsBy]

theorem framed_error {frame : Frame} (inside : frame.startsBy offset = true)
    (failed : framed kind offset frame rest = .error error) :
    error.offset ≤ offset + (rest.length + 1) := by
  rw [framed] at failed
  cases scanned : scanFrames (offset + 1) [frame] rest with
  | ok stop =>
    rw [scanned] at failed
    cases failed
  | error error' =>
    rw [scanned] at failed
    cases failed
    refine scanFrames_error ?_ (by omega) scanned
    cases frame <;> grind [Frame.startsBy]

theorem piece_error (failed : piece previous offset first rest = .error error) :
    error.offset ≤ offset + (first :: rest).length := by
  rw [piece] at failed
  rw [List.length_cons]
  split at failed
  · cases failed
  split at failed
  · cases failed
  split at failed
  · split at failed
    · cases failed
    · cases failed
      show offset ≤ _
      omega
  split at failed
  · exact framed_error (by simp [Frame.startsBy]) failed
  split at failed
  · exact framed_error (by simp [Frame.startsBy]) failed
  split at failed
  · split at failed <;> cases failed
  · rw [plainPiece] at failed
    grind

/-- A run that is stopped is stopped in the text. -/
theorem Reads.error_le (run : Reads previous newline offset text tokens (.error error)) :
    error.offset ≤ offset + text.length := by
  generalize stopped : Except.error error = outcome at run
  induction run with
  | ended => cases stopped
  | stuck found =>
    cases stopped
    exact piece_error found
  | gap parts found later ih =>
    have := ih stopped
    rw [parts, List.length_append]
    omega
  | lexeme parts found later ih =>
    have := ih stopped
    rw [parts, List.length_append]
    omega

end Lexer

/-! ## Tokens and fillers in turn -/

/-- A text that is made up of tokens and fillers in turn, from an offset on, where a line break may
have come before; and whether a line break comes before its end. -/
inductive Woven : Bool → Nat → List Char → List Token → Bool → Prop where
  | last (newline offset fillers) (ends : Filler.AllEndBefore [] fillers) :
      Woven newline offset (Filler.written fillers) []
        (newline || fillers.any Filler.breaksLine)
  | token (newline offset fillers) {run after kind rest newline'} (filled : run ≠ [])
      (inside : kind ≠ .eof) (ends : Filler.AllEndBefore (run ++ after) fillers)
      (later : Woven false (offset + (Filler.written fillers).length + run.length) after rest
        newline') :
      Woven newline offset (Filler.written fillers ++ (run ++ after))
        (⟨kind, String.ofList run,
          ⟨offset + (Filler.written fillers).length,
            offset + (Filler.written fillers).length + run.length⟩,
          newline || fillers.any Filler.breaksLine⟩ :: rest) newline'

namespace Woven

variable {newline newline' : Bool} {offset : Nat} {text : List Char} {tokens : List Token}

/-- One more filler comes before all others. -/
theorem fill {filler : Filler} (ends : filler.EndsBefore text)
    (woven : Woven (newline || filler.breaksLine) (offset + filler.chars.length) text tokens
      newline') :
    Woven newline offset (filler.chars ++ text) tokens newline' := by
  cases woven with
  | @last _ _ fillers ends' =>
    have := Woven.last newline offset (filler :: fillers) ⟨by simpa using ends, ends'⟩
    simpa [Bool.or_assoc] using this
  | @token _ _ fillers run after kind rest _ filled inside ends' later =>
    have := Woven.token newline offset (filler :: fillers) filled inside ⟨ends, ends'⟩
      (by simpa [Nat.add_assoc] using later)
    simpa [Bool.or_assoc, Nat.add_assoc] using this

/-- A run of pieces that comes to the end of the text weaves it. -/
theorem of_reads {previous : Option Token} {outcome : Except LexicalError Bool}
    (run : Reads previous newline offset text tokens outcome) (good : outcome = .ok newline') :
    Woven newline offset text tokens newline' := by
  induction run with
  | ended =>
    cases good
    simpa using Woven.last newline' _ [] trivial
  | stuck found => cases good
  | gap parts found later ih =>
    obtain ⟨filler, after, parts', length, ends, rfl⟩ := Lexer.filler_of_piece found
    rw [parts] at parts'
    obtain ⟨rfl, rfl⟩ := List.append_inj parts' length
    rw [parts]
    exact fill ends (ih good)
  | @lexeme previous newline offset first rest run after kind tokens outcome parts found later ih =>
    have filled : run ≠ [] := List.length_pos_iff.mp (Lexer.length_pos_of_piece found)
    rw [parts]
    simpa using Woven.token newline offset [] filled (Lexer.kind_of_piece found) trivial (ih good)

theorem starts_le (woven : Woven newline offset text tokens newline') :
    ∀ token ∈ tokens ++ [.atEnd (offset + text.length) newline'], offset ≤ token.start := by
  induction woven with
  | last _ _ _ ends =>
    intro token member
    obtain rfl := List.mem_singleton.mp member
    exact Nat.le_add_right ..
  | @token _ offset fillers run after kind rest _ filled inside ends later ih =>
    intro token member
    rcases List.mem_cons.mp member with rfl | member
    · exact Nat.le_add_right ..
    · have := ih token (by simpa [Nat.add_assoc] using member)
      omega

theorem ordered (woven : Woven newline offset text tokens newline') :
    (tokens ++ [Token.atEnd (offset + text.length) newline']).Pairwise
      fun token later : Token => token.stop ≤ later.start := by
  induction woven with
  | last _ _ _ ends => exact List.pairwise_singleton ..
  | token _ _ _ filled inside ends later ih =>
    have behind := later.starts_le
    refine List.pairwise_cons.mpr ⟨fun token member => ?_, ?_⟩
    · exact behind token (by simpa [Nat.add_assoc] using member)
    · simpa [Nat.add_assoc] using ih

/-- Each token holds the text that it stands for. -/
theorem filled (front : List Char) (woven : Woven newline offset text tokens newline')
    (here : offset = front.length) :
    ∀ token ∈ tokens, token.kind ≠ .eof ∧ token.start < token.stop ∧
      token.value.toList = ((front ++ text).drop token.start).take (token.stop - token.start) := by
  induction woven generalizing front with
  | last _ _ _ ends => exact fun token member => absurd member List.not_mem_nil
  | @token _ offset fillers run after kind rest _ filled inside ends later ih =>
    subst here
    intro token member
    rcases List.mem_cons.mp member with rfl | member
    · have positive := List.length_pos_iff.mpr filled
      refine ⟨inside, ?_, ?_⟩
      · simp only [Token.start, Token.stop]
        omega
      · have passed : (front ++ Filler.written fillers).length =
            front.length + (Filler.written fillers).length := List.length_append
        simp only [Token.start, Token.stop, String.toList_ofList, Nat.add_sub_cancel_left,
          ← List.append_assoc, ← passed]
        rw [List.append_assoc, List.drop_left, List.take_left]
    · have := ih (front ++ Filler.written fillers ++ run) (by simp [Nat.add_assoc])
        token member
      simpa using this

theorem isGap_fillers (front : List Char) {after : List Char} {fillers : List Filler}
    {newline : Bool}
    (ends : Filler.AllEndBefore after fillers) (same : newline = fillers.any Filler.breaksLine) :
    IsGap (front ++ (Filler.written fillers ++ after)) front.length
      (front.length + (Filler.written fillers).length) newline := by
  refine ⟨Nat.le_add_right .., by simp, fillers, by simp, ?_, ?_⟩
  · rw [← List.append_assoc, ← List.length_append, List.drop_left]
    exact ends
  · rw [same, Filler.any_breaksLine_iff ends]

/-- Between two tokens stand fillers. -/
theorem gaps (front : List Char) (woven : Woven newline offset text tokens newline')
    (here : offset = front.length) (fresh : newline = false) :
    ∀ before token after,
      tokens ++ [.atEnd (offset + text.length) newline'] = before ++ token :: after →
      IsGap (front ++ text) (endOf offset before) token.start token.newlineBefore := by
  induction woven generalizing front with
  | @last _ offset fillers ends =>
    subst here fresh
    intro before token after parts
    obtain ⟨rfl, same⟩ : before = [] ∧ _ := by
      cases before with
      | nil => exact ⟨rfl, parts⟩
      | cons first before => simp at parts
    cases same
    have := isGap_fillers front ends (Bool.false_or _)
    rwa [List.append_nil] at this
  | @token _ offset fillers run rest kind tokens _ filled inside ends later ih =>
    subst here fresh
    intro before token after parts
    cases before with
    | nil =>
      cases parts
      exact isGap_fillers front ends (Bool.false_or _)
    | cons first before =>
      obtain ⟨rfl, parts⟩ := List.cons.inj parts
      have := ih (front ++ Filler.written fillers ++ run) (by simp [Nat.add_assoc])
        rfl before token after (by simpa [Nat.add_assoc] using parts)
      rw [endOf_cons, Token.stop]
      simpa using this

end Woven

/-- The tokens of a text that are found in a run to its end, with the one at its end, lose nothing
of it. -/
theorem Lexer.Reads.lossless {text : List Char} {tokens : List Token} {newline : Bool}
    (run : Reads none false 0 text tokens (.ok newline)) :
    Lossless text (tokens ++ [.atEnd text.length newline]) := by
  have woven := Woven.of_reads run rfl
  have same : 0 + text.length = text.length := Nat.zero_add _
  constructor
  · exact ⟨tokens, newline, rfl⟩
  · rw [List.dropLast_concat]
    exact woven.filled [] rfl
  · exact same ▸ woven.ordered
  · exact same ▸ woven.gaps [] rfl rfl

/-- The brackets that stay open, and one that closes nothing, are among the tokens. -/
theorem mem_of_openBrackets (opened tokens : List Token) :
    match Lexer.openBrackets opened tokens with
    | .ok left => ∀ token ∈ left, token ∈ opened ++ tokens
    | .error token => token ∈ tokens := by
  fun_induction Lexer.openBrackets opened tokens <;> grind

/-- A text with tokens is made up of them and of fillers between them, and the error of any other
text lies in it. -/
theorem accounted_tokenize (text : String) : Accounted text.toList (tokenize text) := by
  have run := Lexer.reads_pieces none false 0 (Nat.le_refl text.toList.length)
  have laid : Laid ⟨text.toList.length, text.toList.length⟩ 0
      (Lexer.pieces none false text.toList.length 0 text.toList).1 :=
    Lexer.laid_pieces (Nat.le_refl _) _ (by simp)
  have among := mem_of_openBrackets [] (Lexer.pieces none false text.toList.length 0 text.toList).1
  rw [tokenize, Lexer.tokenize]
  generalize Lexer.pieces none false text.toList.length 0 text.toList = result at run laid among ⊢
  obtain ⟨tokens, outcome⟩ := result
  have start_le {token : Token} (member : token ∈ tokens) : token.start ≤ text.toList.length := by
    obtain ⟨before, after, rfl⟩ := List.append_of_mem member
    obtain ⟨-, filled, stop_le, -⟩ := laid.split
    exact Nat.le_trans (Nat.le_of_lt filled) stop_le
  simp only
  cases brackets : Lexer.openBrackets [] tokens with
  | error token =>
    simp only [brackets] at among
    exact start_le among
  | ok opened =>
    simp only [brackets, List.nil_append] at among
    cases outcome with
    | error error =>
      show error.offset ≤ _
      simpa using run.error_le
    | ok newline =>
      cases opened with
      | nil => exact run.lossless
      | cons opener others => exact start_le (among opener (List.mem_cons_self ..))

end SourceCanvas
