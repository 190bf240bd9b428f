import SourceCanvas.Proofs.Chunks
import SourceCanvas.Proofs.Enclosures

/-!
# Lexemes in other surroundings

A lexeme at the start of a text is found again where another text follows with the same chunk
(`stands_of_piece`). A string or a template ends with its mark and sees nothing behind it; a regular
expression sees the word behind it; a number, a word or a punctuator lies inside the chunk of the
text. What may change is a solidus that is read as a punctuator because the line holds no end for a
regular expression: such lexemes are left out.
-/

namespace SourceCanvas

namespace Lexer

open SourceCanvas.Text (isBlank)

variable {text text' run after after' : List Char}

/-! ## Regular expressions -/

theorem regexRest_cons {c : Char} (plain : c ≠ '\\') (inClass : Bool) (rest : List Char) :
    regexRest inClass (c :: rest) =
      if c = '\n' then none
      else if c = '[' then (regexRest true rest).map (· + 1)
      else if c = ']' then (regexRest false rest).map (· + 1)
      else if c = '/' && !inClass then some (1 + wordLength rest)
      else (regexRest inClass rest).map (· + 1) := by
  rw [regexRest.eq_def]
  split
  · next same => cases same
  · next same => exact absurd (List.cons.inj same).1 plain
  · next same => exact absurd (List.cons.inj same).1 plain
  · next same =>
    obtain ⟨rfl, rfl⟩ := List.cons.inj same
    rfl

/-- A start of a text that is read as far as it goes: its last character is none that ends chunks,
and of what lies behind it only the chunk counts. -/
def Reaches (read : List Char → Option Nat) (text : List Char) (length : Nat) : Prop :=
  ∃ run after, text = run ++ after ∧ length = run.length ∧
    (∃ c, run.getLast? = some c ∧ endsChunk c = false) ∧
    ∀ after', chunk after = chunk after' → read (run ++ after') = some length

/-- A character is put before what is read. -/
theorem Reaches.cons {read read' : List Char → Option Nat} {length : Nat}
    (reaches : Reaches read text length) {c : Char}
    (step : ∀ rest, read' (c :: rest) = (read rest).map (· + 1)) :
    Reaches read' (c :: text) (length + 1) := by
  obtain ⟨run, after, rfl, rfl, ⟨last, ends, solid⟩, same⟩ := reaches
  refine ⟨c :: run, after, rfl, rfl, ⟨last, ?_, solid⟩, fun after' alike => ?_⟩
  · rw [List.getLast?_cons, ends]
    rfl
  · rw [List.cons_append, step, same after' alike]
    rfl

/-- Behind the solidus that ends a regular expression its flags are read, which are a word. -/
theorem reaches_flags (rest : List Char) :
    Reaches (regexRest false) ('/' :: rest) (1 + wordLength rest) := by
  have taken : (rest.take (wordLength rest)).length = wordLength rest := by
    rw [List.length_take]
    exact Nat.min_eq_left (wordLength_le rest)
  have parts := List.take_append_drop (wordLength rest) rest
  refine ⟨'/' :: rest.take (wordLength rest), rest.drop (wordLength rest), ?_, ?_, ?_, ?_⟩
  · rw [List.cons_append, parts]
  · rw [List.length_cons, taken, Nat.add_comm]
  · rw [List.getLast?_cons]
    refine ⟨_, rfl, ?_⟩
    cases last : (rest.take (wordLength rest)).getLast? with
    | none => decide
    | some c =>
      exact not_endsChunk_of_mem_take (wordLength_le_chunk rest) (List.mem_of_getLast? last)
  · intro after' alike
    have alike := chunk_append alike (rest.take (wordLength rest))
    rw [parts] at alike
    rw [List.cons_append, regexRest_cons (by decide)]
    simp only [← wordLength_chunk (_ ++ after'), ← alike, wordLength_chunk]
    rfl

/-- What is left of a regular expression is read as far as it goes. -/
theorem reaches_regexRest {inClass : Bool} {length : Nat}
    (found : regexRest inClass text = some length) : Reaches (regexRest inClass) text length := by
  fun_induction regexRest inClass text generalizing length
  case case2 inClass head rest ih =>
    obtain ⟨count, inner, rfl⟩ := Option.map_eq_some_iff.mp found
    -- the character behind the mark is passed whatever it is, so it is put before what is read first
    have escaped : Reaches (fun text => (regexRest inClass text.tail).map (· + 1))
        (head :: rest) (count + 1) := (ih inner).cons fun _ => rfl
    refine escaped.cons fun rest => ?_
    cases rest with
    | nil => rw [regexRest.eq_def]; rfl
    | cons head rest => rw [regexRest.eq_def, Option.map_map]; rfl
  case case5 ih =>
    obtain ⟨count, inner, rfl⟩ := Option.map_eq_some_iff.mp found
    exact (ih inner).cons fun rest => by rw [regexRest.eq_def]; rfl
  case case6 ih =>
    obtain ⟨count, inner, rfl⟩ := Option.map_eq_some_iff.mp found
    exact (ih inner).cons fun rest => by rw [regexRest.eq_def]; rfl
  case case7 inClass c rest escape escape' inLine opening closing ended =>
    cases found
    obtain ⟨rfl, rfl⟩ : c = '/' ∧ inClass = false := by simpa using ended
    exact reaches_flags rest
  case case8 inClass c rest escape escape' inLine opening closing inside ih =>
    obtain ⟨count, inner, rfl⟩ := Option.map_eq_some_iff.mp found
    have plain : c ≠ '\\' := by
      rintro rfl
      cases rest with
      | nil => exact escape' rfl rfl
      | cons head rest => exact escape head rest rfl rfl
    refine (ih inner).cons fun rest => ?_
    rw [regexRest_cons plain, if_neg inLine, if_neg opening, if_neg closing, if_neg inside]
  all_goals cases found

/-! ## Where lexemes start -/

/-- Neither a gap nor a comment starts with a character before a text. -/
structure Bare (first : Char) (rest : List Char) : Prop where
  space : ¬isSpace first = true
  line : ¬"//".toList.isPrefixOf (first :: rest) = true
  block : ¬"/*".toList.isPrefixOf (first :: rest) = true

variable {previous : Option Token} {offset length : Nat} {first : Char} {rest : List Char}
  {kind : TokenKind} {allowed : Bool}

theorem bare_of_piece (read : piece previous offset first rest = .ok (.lexeme length kind)) :
    Bare first rest := by
  rw [piece] at read
  split at read
  · cases read
  next space =>
  split at read
  · cases read
  next line =>
  split at read
  · split at read <;> cases read
  next block =>
  exact ⟨space, line, block⟩

/-- Of what lies behind some characters only the chunk counts. -/
theorem Bare.congr (bare : Bare first (run ++ after)) (alike : chunk after = chunk after') :
    Bare first (run ++ after') := by
  obtain ⟨space, line, block⟩ := bare
  have same : chunk (first :: (run ++ after)) = chunk (first :: (run ++ after')) :=
    chunk_append alike (first :: run)
  rw [List.isPrefixOf_iff_prefix, ← prefix_chunk (by decide), same,
    prefix_chunk (by decide)] at line block
  refine ⟨space, ?_, ?_⟩
  · rwa [List.isPrefixOf_iff_prefix]
  · rwa [List.isPrefixOf_iff_prefix]

/-- What is read where neither a gap nor a comment starts. -/
theorem Bare.piece (bare : Bare first rest) (previous : Option Token) (offset : Nat) :
    piece previous offset first rest =
      if first = '"' || first = '\'' then framed .string offset (.quoted first offset) rest
      else if first = '`' then framed .template offset (.template offset) rest
      else if first = '/' && regexAllowed previous then
        match regexLength? (first :: rest) with
        | some length => .ok (.lexeme length .regex)
        | none => .ok (.lexeme (punctuatorLength (first :: rest)) .punctuator)
      else plainPiece offset first (first :: rest) := by
  rw [Lexer.piece]
  exact (if_neg bare.space).trans ((if_neg bare.line).trans (if_neg bare.block))

/-! ## Lexemes in front of other texts -/

/-- A text starts with a lexeme of a kind, behind a token after which a solidus may start a regular
expression or not. -/
def StartsWith (allowed : Bool) (kind : TokenKind) (run after : List Char) : Prop :=
  ∀ previous offset, regexAllowed previous = allowed → ∃ first rest, run ++ after = first :: rest ∧
    piece previous offset first rest = .ok (.lexeme run.length kind)

/-- A lexeme of a length that is found again in front of any other text with the same chunk. It
neither starts nor ends with a blank. -/
def Stands (allowed : Bool) (kind : TokenKind) (first : Char) (rest : List Char) (length : Nat) :
    Prop :=
  isBlank first = false ∧ ∃ run after, rest = run ++ after ∧ length = run.length + 1 ∧
    (∃ c, (first :: run).getLast? = some c ∧ isBlank c = false) ∧
    ∀ after', chunk after = chunk after' → StartsWith allowed kind (first :: run) after'

theorem plainPiece_chunk {offset offset' : Nat} {first : Char} {found : Piece}
    (other : first ∉ singles) (head : text.head? = some first) (head' : text'.head? = some first)
    (same : chunk text = chunk text') (read : plainPiece offset first text = .ok found) :
    plainPiece offset' first text' = .ok found := by
  have apart : ∀ c ∈ text.head?, c ∉ singles := by simpa [head] using other
  have apart' : ∀ c ∈ text'.head?, c ∉ singles := by simpa [head'] using other
  have number : numberLength text = numberLength text' := by
    rw [← numberLength_chunk text, same, numberLength_chunk]
  have word : wordLength text = wordLength text' := by
    rw [← wordLength_chunk text, same, wordLength_chunk]
  have punctuator : punctuatorLength text = punctuatorLength text' := by
    rw [← punctuatorLength_chunk apart, same, punctuatorLength_chunk apart']
  rw [plainPiece] at read ⊢
  rw [number, word, punctuator] at read
  grind

theorem length_le_chunk {offset length : Nat} {first : Char} {kind : TokenKind}
    (other : ∀ c ∈ text.head?, c ∉ singles)
    (read : plainPiece offset first text = .ok (.lexeme length kind)) :
    length ≤ (chunk text).length := by
  have number := numberLength_le (chunk text)
  have word := wordLength_le (chunk text)
  have punctuator := punctuatorLength_le (chunk text)
  rw [numberLength_chunk] at number
  rw [wordLength_chunk] at word
  rw [punctuatorLength_chunk other] at punctuator
  rw [plainPiece] at read
  grind

/-- A punctuator that stands alone is read whatever comes behind it. -/
theorem plainPiece_single {c : Char} (single : c ∈ singles) (offset : Nat) (rest : List Char) :
    plainPiece offset c (c :: rest) = .ok (.lexeme 1 .punctuator) := by
  have punctuator : punctuatorLength (c :: rest) = 1 := by
    simp only [singles, List.mem_cons, List.not_mem_nil, or_false] at single
    rcases single with rfl | rfl | rfl | rfl | rfl | rfl | rfl | rfl | rfl <;>
      simp [punctuatorLength, punctuators] <;> rfl
  have other : ∀ c ∈ singles, startsWord c = false ∧ Text.isDigit c = false ∧ c ≠ '.' :=
    List.all_iff_forall_prop.mp (by decide)
  obtain ⟨word, digit, point⟩ := other c single
  simp [plainPiece, wordLength, punctuator, word, digit, point]

theorem fills_of_framed {kind kind' : TokenKind} {offset length : Nat} {frame : Frame}
    (read : framed kind offset frame text = .ok (.lexeme length kind')) :
    kind = kind' ∧ ∃ run after, text = run ++ after ∧ length = run.length + 1 ∧
      Fills [frame.enclosure] run := by
  rw [framed] at read
  cases stopped : scanFrames (offset + 1) [frame] text with
  | error error =>
    rw [stopped] at read
    cases read
  | ok stop =>
    rw [stopped] at read
    cases read
    obtain ⟨run, after, parts, rfl, fills⟩ := fills_of_scanFrames stopped
    exact ⟨rfl, run, after, parts, by omega, fills⟩

theorem Fills.framed {frame : Frame} (fills : Fills [frame.enclosure] run) (kind : TokenKind)
    (offset : Nat) (after : List Char) :
    framed kind offset frame (run ++ after) = .ok (.lexeme (run.length + 1) kind) := by
  rw [Lexer.framed, fills.scan (offset + 1) rfl after]
  have length : offset + 1 + run.length - offset = run.length + 1 := by omega
  exact congrArg (fun length => Except.ok (Piece.lexeme length kind)) length

/-- Strings and templates end with the mark that they start with, and nothing behind it counts. -/
theorem Bare.stands_of_framed {frame : Nat → Frame} {enclosure : Enclosure} {kind' : TokenKind}
    (bare : Bare first rest) (solid : isBlank first = false) (closing : enclosure.closing = first)
    (encloses : ∀ offset, (frame offset).enclosure = enclosure)
    (starts : ∀ previous offset rest, Bare first rest →
      Lexer.piece previous offset first rest = framed kind' offset (frame offset) rest)
    (read : framed kind' offset (frame offset) rest = .ok (.lexeme length kind)) :
    Stands allowed kind first rest length := by
  obtain ⟨rfl, run, after, rfl, rfl, fills⟩ := fills_of_framed read
  refine ⟨solid, run, after, rfl, rfl, ⟨first, ?_, solid⟩,
    fun after' alike previous' offset' _ => ?_⟩
  · rw [List.getLast?_cons, fills.getLast?, List.getLast?_singleton, Option.map_some, encloses,
      closing]
    rfl
  · rw [encloses offset, ← encloses offset'] at fills
    refine ⟨first, run ++ after', rfl, ?_⟩
    rw [starts previous' offset' _ (bare.congr alike)]
    exact fills.framed ..

theorem regexLength?_cons {rest : List Char} (line : ¬"//".toList.isPrefixOf ('/' :: rest) = true) :
    regexLength? ('/' :: rest) = (regexRest false rest).map (· + 1) := by
  rw [regexLength?.eq_def]
  split
  · next same =>
    obtain ⟨-, rfl⟩ := List.cons.inj same
    exact absurd (isPrefixOf_lineComment.mpr ⟨_, rfl⟩) line
  · next same =>
    obtain ⟨-, rfl⟩ := List.cons.inj same
    rfl
  · next other => exact (other rest rfl).elim

/-- Of what lies behind a regular expression only the flags and what ends them count. -/
theorem Bare.stands_of_regex (bare : Bare '/' rest)
    (found : regexLength? ('/' :: rest) = some length) : Stands true .regex '/' rest length := by
  rw [regexLength?_cons bare.line] at found
  obtain ⟨count, counted, rfl⟩ := Option.map_eq_some_iff.mp found
  obtain ⟨run, after, rfl, rfl, ⟨last, ends, solid⟩, again⟩ := reaches_regexRest counted
  refine ⟨by decide, run, after, rfl, rfl, ⟨last, ?_, isBlank_of_not_endsChunk solid⟩,
    fun after' alike previous' offset' same => ?_⟩
  · rw [List.getLast?_cons, ends]
    rfl
  · have bare := bare.congr alike
    refine ⟨'/', run ++ after', rfl, ?_⟩
    rw [bare.piece, if_neg (by simp), if_neg (by simp), if_pos (by simp [same]),
      regexLength?_cons bare.line, again after' alike]
    rfl

/-- A number, a word or a punctuator lies inside the chunk, unless it is a punctuator that stands
alone. -/
theorem Bare.stands_of_plain (bare : Bare first rest)
    (quote : ¬(first = '"' || first = '\'') = true) (tick : ¬first = '`')
    (solidus : ¬(first = '/' && allowed) = true)
    (read : plainPiece offset first (first :: rest) = .ok (.lexeme length kind)) :
    Stands allowed kind first rest length := by
  have starts {rest : List Char} {previous : Option Token} (bare : Bare first rest) (offset : Nat)
      (same : regexAllowed previous = allowed) :
      Lexer.piece previous offset first rest = plainPiece offset first (first :: rest) := by
    rw [bare.piece, if_neg quote, if_neg tick, if_neg (by rwa [same])]
  by_cases single : first ∈ singles
  · -- such a punctuator ends the chunk, so the chunk tells nothing about it
    rw [plainPiece_single single] at read
    cases read
    have blank : ∀ c ∈ singles, isBlank c = false := List.all_iff_forall_prop.mp (by decide)
    have blank := blank first single
    refine ⟨blank, [], rest, rfl, rfl, ⟨first, rfl, blank⟩,
      fun after' alike previous' offset' same => ⟨first, after', rfl, ?_⟩⟩
    have bare : Bare first ([] ++ rest) := bare
    exact (starts (bare.congr alike) offset' same).trans (plainPiece_single single ..)
  · have fits : length ≤ (chunk (first :: rest)).length :=
      length_le_chunk (by simpa using single) read
    obtain ⟨_, _, same, positive, inside⟩ := plainPiece_lexeme read
    cases same
    obtain ⟨count, rfl⟩ : ∃ count, length = count + 1 := ⟨length - 1, by omega⟩
    have solid {c : Char} (member : c ∈ first :: rest.take count) : isBlank c = false :=
      isBlank_of_not_endsChunk (not_endsChunk_of_mem_take fits member)
    have counted : (rest.take count).length = count := by
      rw [List.length_take]
      rw [List.length_cons] at inside
      omega
    have parts := List.take_append_drop count rest
    refine ⟨solid (List.mem_cons_self ..), rest.take count, rest.drop count, parts.symm,
      by rw [counted], ?_, fun after' alike previous' offset' same => ?_⟩
    · obtain ⟨c, last⟩ := Option.isSome_iff_exists.mp
        (List.getLast?_isSome.mpr (List.cons_ne_nil first (rest.take count)))
      exact ⟨c, last, solid (List.mem_of_getLast? last)⟩
    · refine ⟨first, rest.take count ++ after', rfl, ?_⟩
      rw [← parts] at bare
      have alike' : chunk (first :: rest) = chunk (first :: (rest.take count ++ after')) := by
        have alike' := chunk_append alike (first :: rest.take count)
        rwa [List.cons_append, parts] at alike'
      rw [starts (bare.congr alike) offset' same, List.length_cons, counted]
      exact plainPiece_chunk single rfl rfl alike' read

/-- **A lexeme** is found again in front of other texts with the same chunk, where a solidus that is
no regular expression could not have been one either. -/
theorem stands_of_piece (read : piece previous offset first rest = .ok (.lexeme length kind))
    (settled : first = '/' → kind = .punctuator → regexAllowed previous = false) :
    Stands (regexAllowed previous) kind first rest length := by
  have bare := bare_of_piece read
  rw [bare.piece] at read
  split at read
  · next quote =>
    have solid : isBlank first = false := by
      rcases (by simpa using quote : first = '"' ∨ first = '\'') with rfl | rfl <;> decide
    have closing : (Enclosure.quoted first).closing = first := rfl
    refine bare.stands_of_framed solid closing (fun _ => rfl) (fun _ _ _ bare => ?_) read
    rw [bare.piece, if_pos quote]
  next quote =>
  split at read
  · next tick =>
    subst tick
    have closing : Enclosure.template.closing = '`' := rfl
    refine bare.stands_of_framed (by decide) closing (fun _ => rfl) (fun _ _ _ bare => ?_) read
    rw [bare.piece, if_neg quote, if_pos rfl]
  next tick =>
  split at read
  · next solidus =>
    obtain ⟨rfl, allowed⟩ : first = '/' ∧ regexAllowed previous = true := by simpa using solidus
    split at read
    · next found =>
      cases read
      rw [allowed]
      exact bare.stands_of_regex found
    · -- no regular expression, but a solidus where one may start
      cases read
      rw [settled rfl rfl] at allowed
      cases allowed
  · next solidus => exact bare.stands_of_plain quote tick solidus read

end Lexer

end SourceCanvas
