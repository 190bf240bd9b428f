import Mathlib.Data.List.Basic
import SourceCanvas.Proofs.ParseProgress
import SourceCanvas.Proofs.Words

/-!
# Passages

A text with tokens that stands in a longer text is read there as it is on its own (`Reads.before`),
if something comes behind it that ends its last lexeme and holds no end for a regular expression. So
a text between braces can be read part by part: `Completes` says of the rest of it that it goes on
to the closing brace, and that the brackets which are open by then are closed before it.
-/

namespace SourceCanvas

namespace Lexer

variable {allowed newline : Bool} {previous : Option Token} {offset length : Nat} {first : Char}
  {kind : TokenKind} {rest run text after : List Char} {tokens opened left : List Token}
  {outcome : Except LexicalError Bool}

/-! ## Texts before other texts -/

/-- What stands between tokens is read as such. -/
theorem piece_of_filler {filler : Filler} (ends : filler.EndsBefore after)
    (parts : first :: rest = filler.chars ++ after) (previous : Option Token) (offset : Nat) :
    piece previous offset first rest = .ok (.gap filler.chars.length filler.breaksLine) := by
  cases filler with
  | blanks run =>
    obtain ⟨filled, spaces, ends⟩ := ends
    obtain ⟨c, run, rfl⟩ := List.exists_cons_of_ne_nil filled
    obtain ⟨rfl, rfl⟩ := List.cons.inj parts
    obtain ⟨space, spaces⟩ := List.forall_mem_cons.mp spaces
    have behind : after.takeWhile isSpace = [] := by
      cases after with
      | nil => rfl
      | cons c after => exact List.takeWhile_cons_of_neg (Bool.eq_false_iff.mp (ends c rfl))
    have found := piece_space space previous offset (run ++ after)
    rwa [List.takeWhile_append_of_pos spaces, behind, List.append_nil] at found
  | lineComment run =>
    obtain ⟨inLine, ends⟩ := ends
    obtain ⟨rfl, rfl⟩ := List.cons.inj parts
    exact piece_line inLine ends previous offset
  | blockComment inner =>
    have parts : first :: rest = '/' :: '*' :: (inner ++ '*' :: '/' :: after) := by
      simpa [Filler.chars] using parts
    obtain ⟨rfl, rfl⟩ := List.cons.inj parts
    exact piece_block ends previous offset after

/-- A filler that ends before a text does so before a longer one. -/
theorem endsBefore_append {filler : Filler} (ends : filler.EndsBefore text) (filled : text ≠ [])
    (after : List Char) : filler.EndsBefore (text ++ after) := by
  cases filler with
  | blanks run => rwa [Filler.EndsBefore, List.head?_append_of_ne_nil _ filled]
  | lineComment run => rwa [Filler.EndsBefore, List.head?_append_of_ne_nil _ filled]
  | blockComment inner => exact ends

/-- A text in which no regular expression that was opened before it ends. -/
def Unending (text : List Char) : Prop :=
  ∀ inClass, regexRest inClass text = none ∧ regexRest inClass text.tail = none

/-- A regular expression that does not end in a text does not end in a longer one. -/
theorem Unending.regexRest_append (unending : Unending after) {inClass : Bool}
    (endless : regexRest inClass text = none) : regexRest inClass (text ++ after) = none := by
  fun_induction regexRest inClass text
  case case1 inClass => exact (unending inClass).1
  case case2 inClass head rest ih =>
    rw [List.cons_append, List.cons_append, regexRest, ih (Option.map_eq_none_iff.mp endless)]
    rfl
  case case3 inClass =>
    -- the text ends within an escape, which takes the first character behind it
    have behind := (unending inClass).2
    cases after with
    | nil => rfl
    | cons d after =>
      have behind : regexRest inClass after = none := behind
      rw [List.singleton_append, regexRest, behind]
      rfl
  case case4 inClass rest =>
    rw [List.cons_append, regexRest_cons (by decide), if_pos rfl]
  case case5 ih =>
    rw [List.cons_append, regexRest_cons (by decide), if_neg (by decide), if_pos rfl,
      ih (Option.map_eq_none_iff.mp endless)]
    rfl
  case case6 ih =>
    rw [List.cons_append, regexRest_cons (by decide), if_neg (by decide), if_neg (by decide),
      if_pos rfl, ih (Option.map_eq_none_iff.mp endless)]
    rfl
  case case7 => cases endless
  case case8 inClass c rest escape escape' inLine opening closing inside ih =>
    have plain : c ≠ '\\' := by
      rintro rfl
      cases rest with
      | nil => exact escape' rfl rfl
      | cons head rest => exact escape head rest rfl rfl
    rw [List.cons_append, regexRest_cons plain, if_neg inLine, if_neg opening, if_neg closing,
      if_neg inside, ih (Option.map_eq_none_iff.mp endless)]
    rfl

theorem chunk_before (ends : ∀ c ∈ after.head?, endsChunk c = true) (text : List Char) :
    chunk text = chunk (text ++ after) := by
  cases after with
  | nil => rw [List.append_nil]
  | cons c after => exact (chunk_append_of_ends (ends c rfl) text after).symm

/-- A lexeme is read before what ends its chunk as it is before nothing. If it is a solidus where a
regular expression could start, none may end behind it. -/
theorem startsWith_of_piece
    (found : piece previous offset first rest = .ok (.lexeme run.length kind))
    (parts : first :: rest = run ++ text) (ends : ∀ c ∈ after.head?, endsChunk c = true)
    (firm : Unending after ∨ (first = '/' → kind = .punctuator → regexAllowed previous = false)) :
    StartsWith (regexAllowed previous) kind run (text ++ after) := by
  by_cases settled : first = '/' → kind = .punctuator → regexAllowed previous = false
  · -- what is settled depends on the chunk alone
    obtain ⟨-, run', text', same, length, -, again⟩ := stands_of_piece found settled
    obtain ⟨rfl, rfl⟩ : run = first :: run' ∧ text = text' := by
      refine List.append_inj (parts.symm.trans ?_) length
      rw [same]
      rfl
    exact again _ (chunk_before ends text)
  -- a solidus at which no regular expression was found: none is found in the longer text either
  have unending := firm.resolve_right settled
  obtain ⟨rfl, rfl, allowed⟩ :
      first = '/' ∧ kind = .punctuator ∧ regexAllowed previous = true := by
    simpa using settled
  have bare := bare_of_piece found
  have bare' : Bare '/' (rest ++ after) := by
    rw [← List.append_nil rest] at bare
    exact bare.congr (chunk_before ends [])
  rw [bare.piece, if_neg (by decide), if_neg (by decide), if_pos (by simp [allowed]),
    regexLength?_cons bare.line] at found
  obtain ⟨endless, length⟩ :
      regexRest false rest = none ∧ punctuatorLength ('/' :: rest) = run.length := by
    cases ended : regexRest false rest with
    | none => simpa [ended] using found
    | some length => simp [ended] at found
  have longer : punctuatorLength ('/' :: (rest ++ after)) = punctuatorLength ('/' :: rest) := by
    have same : chunk ('/' :: rest) = chunk ('/' :: (rest ++ after)) :=
      chunk_before ends ('/' :: rest)
    have other : ∀ rest, ∀ c ∈ ('/' :: rest).head?, c ∉ singles := by simp [singles]
    rw [← punctuatorLength_chunk (other _), ← same, punctuatorLength_chunk (other _)]
  intro previous' offset' same
  refine ⟨'/', rest ++ after, ?_, ?_⟩
  · rw [← List.append_assoc, ← parts, List.cons_append]
  · rw [bare'.piece, if_neg (by decide), if_neg (by decide), if_pos (by simp [same, allowed]),
      regexLength?_cons bare'.line, unending.regexRest_append endless, longer, length]
    rfl

/-- A lexeme of settled ones that starts with a solidus is a regular expression, or divides. -/
theorem divides_of_settled {lexemes : List (TokenKind × String)}
    (found : piece previous offset first rest = .ok (.lexeme run.length kind))
    (parts : first :: rest = run ++ text)
    (settled : Settled allowed ((kind, String.ofList run) :: lexemes)) (solidus : first = '/')
    (mark : kind = .punctuator) : allowed = false := by
  refine settled.1 mark ?_
  obtain ⟨c, run, rfl⟩ := List.exists_cons_of_ne_nil
    (List.ne_nil_of_length_pos (length_pos_of_piece found))
  rw [String.toList_ofList, ← (List.cons.inj parts).1, solidus]
  rfl

/-- **A text with tokens**, the last of which ends it, is read in front of what ends its last chunk
as it is on its own, and the reading goes on behind that token. -/
theorem Reads.before (reads : Reads previous newline offset text tokens outcome) {token : Token}
    (last : tokens.getLast? = some token) (place : token.stop = offset + text.length)
    (ends : ∀ c ∈ after.head?, endsChunk c = true)
    (firm : Unending after ∨ Settled (regexAllowed previous) (tokens.map Token.lexeme))
    {previous' : Option Token} (same : regexAllowed previous' = regexAllowed previous)
    (newline' : Bool) (offset' : Nat) :
    ∃ tokens' token', tokens'.map Token.lexeme = tokens.map Token.lexeme ∧
      token'.lexeme = token.lexeme ∧
      ∀ later outcome, Reads (some token') false (offset' + text.length) after later outcome →
        Reads previous' newline' offset' (text ++ after) (tokens' ++ later) outcome := by
  induction reads generalizing previous' newline' offset' with
  | ended => cases last
  | stuck => cases last
  | @gap previous newline offset first rest run behind _ tokens outcome parts found later ih =>
    have length : (first :: rest).length = run.length + behind.length := by
      rw [parts, List.length_append]
    obtain ⟨filler, behind', parts', length', ends', -⟩ := filler_of_piece found
    obtain ⟨rfl, rfl⟩ := List.append_inj (parts.symm.trans parts') length'
    -- a token is still to come, so what ends the filler is in the text
    have filled : behind ≠ [] := by
      rintro rfl
      cases later
      cases last
    have parts'' : first :: (rest ++ after) = filler.chars ++ (behind ++ after) := by
      rw [← List.append_assoc, ← parts, List.cons_append]
    have again := piece_of_filler (endsBefore_append ends' filled after) parts'' previous' offset'
    obtain ⟨tokens', token', same', alike, goes⟩ :=
      ih last (by omega) firm same (newline' || filler.breaksLine) (offset' + filler.chars.length)
    refine ⟨tokens', token', same', alike, fun later outcome reads => ?_⟩
    rw [length, ← Nat.add_assoc] at reads
    exact .gap parts'' again (goes later outcome reads)
  | @lexeme previous newline offset first rest run behind kind tokens _ parts found later ih =>
    have length : (first :: rest).length = run.length + behind.length := by
      rw [parts, List.length_append]
    have starts : StartsWith (regexAllowed previous) kind run (behind ++ after) :=
      startsWith_of_piece found parts ends (firm.imp_right (divides_of_settled found parts))
    obtain ⟨first', rest', parts', again⟩ := starts previous' offset' same
    let token' : Token := ⟨kind, String.ofList run, ⟨offset', offset' + run.length⟩, newline'⟩
    have step := @Reads.lexeme previous' newline' offset' first' rest' run (behind ++ after) kind
    rw [← parts', ← List.append_assoc, ← parts] at step
    cases tokens with
    | nil =>
      -- the last lexeme ends the text, so nothing of the text is left behind it
      obtain rfl := Option.some.inj last
      have place : offset + run.length = offset + (first :: rest).length := place
      obtain rfl : behind = [] := List.length_eq_zero_iff.mp (by omega)
      refine ⟨[token'], token', rfl, rfl, fun later outcome reads => ?_⟩
      rw [length] at reads
      exact step rfl again reads
    | cons next tokens =>
      obtain ⟨tokens', last', same', alike, goes⟩ :=
        @ih last (by rw [place, length, Nat.add_assoc]) (firm.imp_right And.right) (some token') rfl
          false (offset' + run.length)
      refine ⟨token' :: tokens', last', ?_, alike, fun later outcome reads => ?_⟩
      · rw [List.map_cons, List.map_cons, same']
        rfl
      · rw [length, ← Nat.add_assoc] at reads
        exact step rfl again (goes later outcome reads)

/-! ## Where tokens start -/

theorem Reads.le_start (reads : Reads previous newline offset text tokens outcome) :
    ∀ token ∈ tokens, offset ≤ token.start := by
  induction reads with
  | ended => exact nofun
  | stuck => exact nofun
  | gap parts found later ih =>
    exact fun token member => Nat.le_trans (Nat.le_add_right ..) (ih token member)
  | lexeme parts found later ih =>
    refine List.forall_mem_cons.mpr ⟨Nat.le_refl _, fun token member => ?_⟩
    exact Nat.le_trans (Nat.le_add_right ..) (ih token member)

/-- A text that starts with a token starts with no blank. -/
theorem Reads.solid (reads : Reads previous newline offset text tokens outcome)
    (start : tokens.head?.map Token.start = some offset) :
    ∃ c rest, text = c :: rest ∧ isSpace c = false ∧ Text.isBlank c = false := by
  cases reads with
  | ended => cases start
  | stuck => cases start
  | @gap _ _ _ first rest run behind _ _ _ parts found later =>
    obtain ⟨token, head, rfl⟩ := Option.map_eq_some_iff.mp start
    have filled : 0 < run.length := length_pos_of_piece found
    have := later.le_start token (List.mem_of_head? head)
    omega
  | @lexeme _ _ _ first rest run behind kind tokens _ parts found later =>
    refine ⟨first, rest, rfl, by simpa using (bare_of_piece found).space, ?_⟩
    by_cases solidus : first = '/'
    · rw [solidus]
      decide
    · exact (stands_of_piece found fun same => absurd same solidus).1

/-! ## Up to a closing brace -/

/-- A token that says something, wherever it stands. -/
def spoken (lexeme : TokenKind × String) : Token := ⟨lexeme.1, lexeme.2, ⟨0, 0⟩, false⟩

/-- What is left of a text between braces, behind a token after which a solidus may start a regular
expression or not: it is read as tokens up to the closing brace, before which the brackets that are
open are closed. -/
def Completes (allowed : Bool) (opened : List (TokenKind × String)) (text : List Char) : Prop :=
  ∀ previous newline offset, regexAllowed previous = allowed → ∃ inner newline',
    openBrackets (opened.map spoken) inner = .ok [] ∧
    Reads previous newline offset (text ++ ['\x7d']) (inner ++
      [⟨.punctuator, "\x7d", ⟨offset + text.length, offset + text.length + 1⟩, newline'⟩])
      (.ok false)

theorem map_lexeme_spoken (lexemes : List (TokenKind × String)) :
    (lexemes.map spoken).map Token.lexeme = lexemes := by
  simp [spoken, Token.lexeme, Function.comp_def]

namespace Completes

variable {opened left : List (TokenKind × String)}

theorem nil : Completes allowed [] [] := by
  intro previous newline offset same
  obtain ⟨first, rest, parts, found⟩ :=
    @startsWith_single allowed '\x7d' [] (by decide) previous offset same
  obtain ⟨rfl, rfl⟩ := List.cons.inj parts
  exact ⟨[], newline, rfl, .lexeme rfl found .ended⟩

/-- Blanks are passed over. -/
theorem blanks (later : Completes allowed opened text) (filled : run ≠ [])
    (spaces : ∀ c ∈ run, isSpace c = true) (solid : text.head?.any isSpace = false) :
    Completes allowed opened (run ++ text) := by
  intro previous newline offset same
  obtain ⟨c, run, rfl⟩ := List.exists_cons_of_ne_nil filled
  have ends : (Filler.blanks (c :: run)).EndsBefore (text ++ ['\x7d']) := by
    refine ⟨filled, spaces, fun d head => ?_⟩
    cases text with
    | nil =>
      obtain rfl := Option.some.inj head
      rfl
    | cons first text =>
      obtain rfl := Option.some.inj head
      exact solid
  obtain ⟨inner, newline', matched, reads⟩ := later previous _ (offset + (c :: run).length) same
  refine ⟨inner, newline', matched, ?_⟩
  rw [List.length_append, ← Nat.add_assoc, List.append_assoc]
  exact .gap rfl (piece_of_filler ends rfl previous offset) reads

/-- A text with tokens, the last of which ends it, is read in front of what completes it. -/
theorem passage (reads : Reads previous newline offset text tokens outcome) {token : Token}
    (last : tokens.getLast? = some token) (place : token.stop = offset + text.length)
    (ends : (after ++ ['\x7d']).head?.all endsChunk = true)
    (firm : Unending (after ++ ['\x7d']) ∨
      Settled (regexAllowed previous) (tokens.map Token.lexeme))
    (matched : (openBrackets (opened.map spoken) tokens).map (List.map Token.lexeme) = .ok left)
    (later : Completes (regexAllowed (some token)) left after) :
    Completes (regexAllowed previous) opened (text ++ after) := by
  intro previous' newline' offset' same
  have ends : ∀ c ∈ (after ++ ['\x7d']).head?, endsChunk c = true := by
    simpa [Option.all] using ends
  obtain ⟨tokens', token', lexemes, lexeme, goes⟩ :=
    reads.before last place ends firm same newline' offset'
  have same' : regexAllowed (some token') = regexAllowed (some token) := by
    obtain ⟨kind, value⟩ := Prod.mk.inj lexeme
    simp [regexAllowed, Token.isPunctIn, kind, value]
  obtain ⟨inner, newline'', matched', behind⟩ :=
    later (some token') false (offset' + text.length) same'
  obtain ⟨found, front, rfl⟩ : ∃ found,
      openBrackets (opened.map spoken) tokens = .ok found ∧ found.map Token.lexeme = left := by
    cases result : openBrackets (opened.map spoken) tokens with
    | error closer => simp [result, Except.map] at matched
    | ok found => exact ⟨found, rfl, by simpa [result, Except.map] using matched⟩
  obtain ⟨stack, front, alike⟩ := openBrackets_lexeme rfl lexemes.symm front
  obtain ⟨none, matched', empty⟩ := openBrackets_lexeme
    ((map_lexeme_spoken _).trans alike) rfl matched'
  obtain rfl : none = [] := by simpa using empty.symm
  refine ⟨tokens' ++ inner, newline'', ?_, ?_⟩
  · rw [openBrackets_append, front]
    exact matched'
  · rw [List.length_append, ← Nat.add_assoc, List.append_assoc, List.append_assoc]
    exact goes _ _ behind

/-- What a text does to the brackets that are open before it, and whether a solidus behind it may
start a regular expression. Nothing if the text has no tokens, does not end with one, or has one
that starts with a solidus. -/
def passage? (previous : Option Token) (opened : List (TokenKind × String)) (text : List Char) :
    Option (Bool × List (TokenKind × String)) := do
  let (tokens, _) := pieces previous false text.length 0 text
  let last ← tokens.getLast?
  let left ← (openBrackets (opened.map spoken) tokens).toOption
  if last.stop = text.length ∧ ∀ token ∈ tokens, token.value.toList.head? ≠ some '/' then
    some (regexAllowed (some last), left.map Token.lexeme)
  else
    none

theorem settled_of_ne (allowed : Bool)
    (other : ∀ token ∈ tokens, token.value.toList.head? ≠ some '/') :
    Settled allowed (tokens.map Token.lexeme) := by
  induction tokens generalizing allowed with
  | nil => trivial
  | cons token tokens ih =>
    obtain ⟨here, others⟩ := List.forall_mem_cons.mp other
    exact ⟨fun _ solidus => absurd solidus here, ih _ others⟩

/-- A fixed text is read in front of what completes it. -/
theorem fixed (previous : Option Token) (allowed' : Bool) (left : List (TokenKind × String))
    (passed : passage? previous opened text = some (allowed', left))
    (same : regexAllowed previous = allowed)
    (ends : (after ++ ['\x7d']).head?.all endsChunk = true)
    (later : Completes allowed' left after) : Completes allowed opened (text ++ after) := by
  have reads := reads_pieces previous false 0 (Nat.le_refl text.length)
  rw [passage?] at passed
  generalize pieces previous false text.length 0 text = result at reads passed
  obtain ⟨tokens, outcome⟩ := result
  obtain ⟨last, found, passed⟩ := Option.bind_eq_some_iff.mp passed
  obtain ⟨stack, matched, passed⟩ := Option.bind_eq_some_iff.mp passed
  split at passed
  · next holds =>
    obtain ⟨rfl, rfl⟩ := Prod.mk.inj (Option.some.inj passed)
    rw [← same]
    refine passage reads found (by rw [holds.1, Nat.zero_add]) ends
      (.inr (settled_of_ne _ holds.2)) ?_ later
    cases result : openBrackets (opened.map spoken) tokens with
    | error closer => simp [result, Except.toOption] at matched
    | ok found =>
      obtain rfl : found = stack := by simpa [result, Except.toOption] using matched
      rfl
  · cases passed

/-- A token behind which a solidus divides. -/
def divided : Option Token := some (.atEnd 0 false)

/-- A fixed text that reads the same behind every token. -/
theorem anywhere (left : List (TokenKind × String))
    (passed : ∀ previous ∈ [none, divided], passage? previous opened text = some (true, left))
    (ends : (after ++ ['\x7d']).head?.all endsChunk = true) (later : Completes true left after)
    (allowed : Bool) : Completes allowed opened (text ++ after) := by
  cases allowed with
  | true => exact .fixed none true left (passed none (by simp)) rfl ends later
  | false => exact .fixed divided true left (passed divided (by simp)) rfl ends later

end Completes

end Lexer

end SourceCanvas
