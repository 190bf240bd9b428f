import SourceCanvas.Proofs.Spelling
import SourceCanvas.Text.Lines

/-!
# Margins

`Relaid` covers what moving a body to another margin may do: blanks go at the start and at the end
of lines, and spaces are put before lines. A text whose lexemes stand in one line each spells them
again when it is laid out anew (`Spells.relaid`). Line comments lose blanks and block comments get
some, but end where they ended; between two tokens all line feeds may go but one.

Each step by which a body is captured is of that kind: dropping blank lines, a margin, and blanks at
the ends of lines and of the whole.
-/

namespace SourceCanvas

open SourceCanvas.Text (isBlank)

namespace Lexer

/-- A text laid out anew, from the start of a line on or behind something: blanks at the start and
at the end of lines are dropped, and spaces are put before lines. -/
inductive Relaid : Bool → List Char → List Char → Prop where
  | ended {start} : Relaid start [] []
  | keep {start c text text'} (later : Relaid (c = '\n') text text') :
      Relaid start (c :: text) (c :: text')
  | dropFront {c text text'} (blank : isBlank c = true) (later : Relaid true text text') :
      Relaid true (c :: text) text'
  | addFront {text text'} (later : Relaid true text text') : Relaid true text (' ' :: text')
  | dropBack {start blanks text text'} (blank : ∀ c ∈ blanks, isBlank c = true)
      (ends : ∀ c, text.head? = some c → c = '\n') (later : Relaid start text text') :
      Relaid start (blanks ++ text) text'

namespace Relaid

variable {start : Bool} {text text' : List Char} {c : Char}

/-- The text up to the end of a line is blank. -/
def BlankLine (text : List Char) : Prop :=
  ∃ blanks behind, text = blanks ++ behind ∧ (∀ c ∈ blanks, isBlank c = true) ∧
    ∀ c, behind.head? = some c → c = '\n'

/-- What may become of a character when the text is laid out anew. -/
inductive First (start : Bool) (c : Char) (text text' : List Char) : Prop where
  /-- it is kept, behind spaces that are put before the line -/
  | kept (count : Nat) {behind : List Char} (spaces : start = false → count = 0)
      (same : text' = List.replicate count ' ' ++ c :: behind)
      (later : Relaid (c = '\n') text behind)
  /-- it is dropped as a blank, behind something only if a blank line follows -/
  | dropped (count : Nat) {behind : List Char} {start' : Bool}
      (same : text' = List.replicate count ' ' ++ behind) (blank : isBlank c = true)
      (later : Relaid start' text behind)
      (line : start = false → count = 0 ∧ start' = false ∧ BlankLine text)

theorem first (relaid : Relaid start (c :: text) text') : First start c text text' := by
  generalize whole : c :: text = all at relaid
  induction relaid with
  | ended => cases whole
  | keep later =>
    cases whole
    exact .kept 0 (fun _ => rfl) rfl later
  | dropFront blank later =>
    cases whole
    exact .dropped 0 rfl blank later nofun
  | addFront later ih =>
    cases ih whole with
    | kept count _ same later => exact .kept (count + 1) nofun (congrArg (' ' :: ·) same) later
    | dropped count same blank later _ =>
      exact .dropped (count + 1) (congrArg (' ' :: ·) same) blank later nofun
  | @dropBack start blanks behind text' blank ends later ih =>
    cases blanks with
    | nil => exact ih whole
    | cons d blanks =>
      obtain ⟨rfl, rfl⟩ := List.cons.inj whole
      have blank' : ∀ d ∈ blanks, isBlank d = true :=
        fun d member => blank d (List.mem_cons_of_mem _ member)
      have line : BlankLine (blanks ++ behind) := ⟨blanks, behind, rfl, blank', ends⟩
      exact .dropped 0 rfl (blank c (List.mem_cons_self ..)) (.dropBack blank' ends later)
        fun inside => ⟨rfl, inside, line⟩

/-- Behind something, a character that is no blank stays the first one. -/
theorem cons_of_solid (relaid : Relaid false (c :: text) text') (solid : isBlank c = false) :
    ∃ behind, text' = c :: behind ∧ Relaid false text behind := by
  cases relaid.first with
  | kept _ spaces same later =>
    obtain rfl := spaces rfl
    have inLine : c ≠ '\n' := by
      rintro rfl
      cases solid
    rw [decide_eq_false inLine] at later
    exact ⟨_, same, later⟩
  | dropped _ same blank =>
    rw [solid] at blank
    cases blank

/-- Behind something, the end of a line stays one. -/
theorem ends (relaid : Relaid false text text') (ends : ∀ c, text.head? = some c → c = '\n') :
    ∀ c, text'.head? = some c → c = '\n' := by
  generalize behind : false = start at relaid
  induction relaid with
  | ended => exact ends
  | keep later => exact ends
  | dropFront => cases behind
  | addFront => cases behind
  | dropBack blank ends' later ih => exact ih ends' behind

/-- Behind something, no character but a blank can come to the front. -/
theorem head_eq (relaid : Relaid false text (c :: text')) (solid : isBlank c = false) :
    text.head? = some c := by
  generalize behind : false = start at relaid
  generalize whole : c :: text' = all at relaid
  induction relaid with
  | ended => cases whole
  | keep later =>
    cases whole
    rfl
  | dropFront => cases behind
  | addFront => cases behind
  | @dropBack start blanks text all blank ends later ih =>
    cases blanks with
    | nil => exact ih behind whole
    | cons d blanks =>
      obtain rfl := ends c (ih behind whole)
      cases solid

/-- Behind something, the chunk stays what it is. -/
theorem chunk (relaid : Relaid false text text') : chunk text = chunk text' := by
  have ended {text : List Char} (ends : ∀ c, text.head? = some c → c = '\n') :
      Lexer.chunk text = [] := by
    cases text with
    | nil => rfl
    | cons c text =>
      rw [ends c rfl]
      exact chunk_cons_of_ends (by decide) text
  generalize behind : false = start at relaid
  induction relaid with
  | ended => rfl
  | @keep start c text text' later ih =>
    rw [chunk_cons, chunk_cons]
    split
    · rfl
    · next inside =>
      have inLine : c ≠ '\n' := fun same => inside (same ▸ by decide)
      rw [ih (decide_eq_false inLine).symm]
  | dropFront => cases behind
  | addFront => cases behind
  | @dropBack start blanks text text' blank ends later ih =>
    subst behind
    cases blanks with
    | nil => exact ih rfl
    | cons c blanks =>
      have ending : endsChunk c = true := by
        simp [endsChunk, blank c (List.mem_cons_self ..)]
      rw [ended (later.ends ends)]
      exact chunk_cons_of_ends ending _

/-! ## Pieces laid out anew -/

/-- Blanks that are laid out anew are spaces. -/
theorem of_nil (relaid : Relaid start [] text') : ∃ count, text' = List.replicate count ' ' := by
  generalize none : [] = text at relaid
  induction relaid with
  | ended => exact ⟨0, rfl⟩
  | keep => cases none
  | dropFront => cases none
  | addFront later ih =>
    obtain ⟨count, rfl⟩ := ih none
    exact ⟨count + 1, rfl⟩
  | dropBack blank ends later ih => exact ih (List.append_eq_nil_iff.mp none.symm).2.symm

/-- What is left of a line comment goes on to the end of its line. -/
theorem line {run after : List Char} (inLine : '\n' ∉ run)
    (ends : ∀ c, after.head? = some c → c = '\n')
    (relaid : Relaid false (run ++ after) text') :
    ∃ run' after', text' = run' ++ after' ∧ '\n' ∉ run' ∧ (∀ c, after'.head? = some c → c = '\n') ∧
      Relaid false after after' := by
  induction run generalizing text' with
  | nil => exact ⟨[], text', rfl, inLine, relaid.ends ends, relaid⟩
  | cons c run ih =>
    rw [List.mem_cons, not_or] at inLine
    cases relaid.first with
    | kept _ spaces same later =>
      obtain rfl := spaces rfl
      rw [decide_eq_false (Ne.symm inLine.1)] at later
      obtain ⟨run', after', rfl, inLine', ends', later⟩ := ih inLine.2 later
      exact ⟨c :: run', after', same, by simp [inLine.1, inLine'], ends', later⟩
    | dropped _ same blank later line =>
      obtain ⟨rfl, rfl, -⟩ := line rfl
      obtain rfl : text' = _ := same
      exact ih inLine.2 later

/-- What is left of a block comment goes on to its closing mark, and to no earlier one. -/
theorem block {inner after : List Char} (closed : ¬['*', '/'] <:+: inner)
    (relaid : Relaid start (inner ++ '*' :: '/' :: after) text') :
    ∃ inner' after', text' = inner' ++ '*' :: '/' :: after' ∧ ¬['*', '/'] <:+: inner' ∧
      Relaid false after after' := by
  have spaced {inner : List Char} (closed : ¬['*', '/'] <:+: inner) (count : Nat) :
      ¬['*', '/'] <:+: List.replicate count ' ' ++ inner := by
    induction count with
    | zero => exact closed
    | succ count ih =>
      rw [List.replicate_succ, List.cons_append, List.infix_cons_iff]
      simp [List.cons_prefix_cons, ih]
  induction inner generalizing start text' with
  | nil =>
    cases relaid.first with
    | kept count spaces same later =>
      obtain ⟨after', rfl, later'⟩ := later.cons_of_solid (by decide)
      have apart := spaced (show ¬['*', '/'] <:+: [] by simp) count
      rw [List.append_nil] at apart
      exact ⟨List.replicate count ' ', after', same, apart, later'⟩
    | dropped _ same blank => cases blank
  | cons c inner ih =>
    rw [List.infix_cons_iff, not_or] at closed
    cases relaid.first with
    | kept count spaces same later =>
      obtain ⟨inner', after', rfl, closed', later'⟩ := ih closed.2 later
      refine ⟨List.replicate count ' ' ++ c :: inner', after', ?_, spaced ?_ count, later'⟩
      · rw [same]
        simp
      rw [List.infix_cons_iff]
      rintro (starts | inside)
      · -- a mark that came together in the new text was there before
        obtain ⟨rfl, rest, rfl⟩ := List.cons_prefix_cons.mp starts
        have head := later.head_eq (by decide)
        cases inner with
        | nil => cases head
        | cons d inner =>
          obtain rfl : d = '/' := Option.some.inj head
          exact closed.1 ⟨inner, rfl⟩
      · exact closed' inside
    | dropped count same blank later line =>
      obtain ⟨inner', after', rfl, closed', later'⟩ := ih closed.2 later
      refine ⟨List.replicate count ' ' ++ inner', after', ?_, spaced closed' count, later'⟩
      rw [same, List.append_assoc]

/-- What a lexeme in one line stands for is kept. -/
theorem lexeme {run after : List Char} (inLine : '\n' ∉ run)
    (last : ∀ c, run.getLast? = some c → isBlank c = false)
    (relaid : Relaid false (run ++ after) text') :
    ∃ after', text' = run ++ after' ∧ Relaid false after after' := by
  induction run generalizing text' with
  | nil => exact ⟨text', rfl, relaid⟩
  | cons c run ih =>
    rw [List.mem_cons, not_or] at inLine
    have last' : ∀ d, run.getLast? = some d → isBlank d = false := fun d ends =>
      last d (by rw [List.getLast?_cons, ends]; rfl)
    cases relaid.first with
    | kept _ spaces same later =>
      obtain rfl := spaces rfl
      rw [decide_eq_false (Ne.symm inLine.1)] at later
      obtain ⟨after', rfl, later'⟩ := ih inLine.2 last' later
      exact ⟨after', same, later'⟩
    | dropped _ same blank later line =>
      -- the line would be blank up to its end, but the lexeme ends in it and not with a blank
      obtain ⟨-, -, blanks, behind, parts, blank', ends⟩ := line rfl
      have solid : ¬∀ d ∈ run, isBlank d = true := by
        intro all
        obtain ⟨d, ends⟩ :=
          Option.isSome_iff_exists.mp (List.getLast?_isSome.mpr (List.cons_ne_nil c run))
        have blank : isBlank d = true := by
          rcases List.mem_cons.mp (List.mem_of_getLast? ends) with rfl | member
          · exact blank
          · exact all d member
        rw [last d ends] at blank
        cases blank
      rcases List.append_eq_append_iff.mp parts with ⟨more, rfl, -⟩ | ⟨more, rfl, rfl⟩
      · exact (solid fun d member => blank' d (List.mem_append_left _ member)).elim
      · cases more with
        | nil => exact (solid (by simpa using blank')).elim
        | cons d more =>
          obtain rfl := ends d rfl
          exact (inLine.2 (by simp)).elim

end Relaid

variable {allowed start : Bool} {text text' : List Char} {lexemes : List (TokenKind × String)}

theorem Spells.spaces (count : Nat) (spells : Spells allowed text lexemes) :
    Spells allowed (List.replicate count ' ' ++ text) lexemes := by
  induction count with
  | zero => exact spells
  | succ count ih => exact .space (by decide) ih

/-- A text whose lexemes stand in one line each spells them also when it is laid out anew. -/
theorem Spells.relaid (spells : Spells allowed text lexemes) (relaid : Relaid start text text')
    (flat : ∀ lexeme ∈ lexemes, '\n' ∉ lexeme.2.toList) (settled : Settled allowed lexemes) :
    Spells allowed text' lexemes := by
  induction spells generalizing start text' with
  | ended =>
    obtain ⟨count, rfl⟩ := relaid.of_nil
    exact List.append_nil (List.replicate count ' ') ▸ Spells.ended.spaces count
  | space space later ih =>
    cases relaid.first with
    | kept _ _ same later' => exact same ▸ (Spells.space space (ih later' flat settled)).spaces _
    | dropped _ same _ later' _ => exact same ▸ (ih later' flat settled).spaces _
  | line inLine ends later ih =>
    cases relaid.first with
    | dropped _ same blank => cases blank
    | kept _ _ same second =>
      obtain ⟨behind, rfl, rest⟩ := second.cons_of_solid (by decide)
      obtain ⟨run', after', rfl, inLine', ends', after⟩ := Relaid.line inLine ends rest
      exact same ▸ (Spells.line inLine' ends' (ih after flat settled)).spaces _
  | block closed later ih =>
    cases relaid.first with
    | dropped _ same blank => cases blank
    | kept _ _ same second =>
      obtain ⟨behind, rfl, rest⟩ := second.cons_of_solid (by decide)
      obtain ⟨inner', after', rfl, closed', after⟩ := Relaid.block closed rest
      exact same ▸ (Spells.block closed' (ih after flat settled)).spaces _
  | @lexeme allowed kind first run text lexemes starts solid last later ih =>
    have inLine := flat _ (List.mem_cons_self ..)
    rw [String.toList_ofList, List.mem_cons, not_or] at inLine
    cases relaid.first with
    | dropped _ same blank =>
      rw [solid] at blank
      cases blank
    | kept _ _ same rest =>
      rw [decide_eq_false (Ne.symm inLine.1)] at rest
      have last' (d : Char) (ends : run.getLast? = some d) : isBlank d = false := by
        obtain ⟨c, ends', solid⟩ := last
        rw [List.getLast?_cons, ends] at ends'
        cases ends'
        exact solid
      obtain ⟨after', rfl, after⟩ := Relaid.lexeme inLine.2 last' rest
      have settled' (solidus : first = '/') (punctuator : kind = .punctuator) : allowed = false :=
        settled.1 punctuator (by simp [solidus])
      have starts := starts.congr settled' after.chunk
      have spells := ih after (fun lexeme member => flat lexeme (List.mem_cons_of_mem _ member))
        settled.2
      exact same ▸ (Spells.lexeme starts solid last spells).spaces _

/-! ## Lines laid out anew -/

namespace Relaid

theorem refl (start : Bool) (text : List Char) : Relaid start text text := by
  induction text generalizing start with
  | nil => exact .ended
  | cons c text ih => exact .keep (ih _)

/-- Blanks at the start of a line are dropped. -/
theorem dropBlanks {blanks : List Char} (blank : ∀ c ∈ blanks, isBlank c = true)
    (relaid : Relaid true text text') : Relaid true (blanks ++ text) text' := by
  induction blanks with
  | nil => exact relaid
  | cons c blanks ih =>
    refine .dropFront (blank c (List.mem_cons_self ..)) (ih fun d member => ?_)
    exact blank d (List.mem_cons_of_mem c member)

/-- Blanks at the end of a text are dropped. -/
theorem dropEnd {blanks : List Char} (blank : ∀ c ∈ blanks, isBlank c = true) (start : Bool)
    (text : List Char) : Relaid start (text ++ blanks) text := by
  induction text generalizing start with
  | nil =>
    have dropped : Relaid start (blanks ++ []) [] := .dropBack blank nofun .ended
    rwa [List.append_nil] at dropped
  | cons c text ih => exact .keep (ih _)

theorem indent (count : Nat) (text : List Char) :
    Relaid true text (List.replicate count ' ' ++ text) := by
  induction count with
  | zero => exact refl true text
  | succ count ih => exact .addFront ih

/-- A line laid out anew before others that are. -/
theorem append {others others' : List Char} (line : Relaid start text text')
    (behind : Relaid true others others') :
    Relaid start (text ++ '\n' :: others) (text' ++ '\n' :: others') := by
  induction line with
  | ended => exact .keep behind
  | keep later ih => exact .keep ih
  | dropFront blank later ih => exact .dropFront blank ih
  | addFront later ih => exact .addFront ih
  | @dropBack start blanks text text' blank ends later ih =>
    rw [List.append_assoc]
    refine .dropBack blank (fun c head => ?_) ih
    cases text with
    | nil => exact (Option.some.inj head).symm
    | cons d text => exact ends c head

theorem join {f : List Char → List Char} (each : ∀ line, Relaid true line (f line))
    (lines : List (List Char)) :
    Relaid true (Text.join '\n' lines) (Text.join '\n' (lines.map f)) := by
  induction lines with
  | nil => exact .ended
  | cons line lines ih =>
    cases lines with
    | nil => exact each line
    | cons next lines => exact (each line).append ih

end Relaid

end Lexer

/-! ## Captured bodies -/

namespace Text

open Lexer (Relaid)

variable {text : List Char} {lines : List (List Char)}

theorem trimEnd_append (text : List Char) :
    ∃ blanks, text = trimEnd text ++ blanks ∧ ∀ c ∈ blanks, isBlank c = true := by
  induction text with
  | nil => exact ⟨[], rfl, nofun⟩
  | cons c text ih =>
    obtain ⟨blanks, same, blank⟩ := ih
    rw [trimEnd]
    split
    · next none =>
      rw [none, List.nil_append] at same
      subst same
      split
      · next space => exact ⟨c :: text, rfl, by simpa [space] using blank⟩
      · exact ⟨text, rfl, blank⟩
    · next kept other =>
      exact ⟨blanks, congrArg (c :: ·) same, blank⟩

theorem relaid_nil {text : List Char} (blank : ∀ c ∈ text, isBlank c = true) :
    Relaid true text [] := by
  have dropped := Relaid.dropBlanks blank .ended
  rwa [List.append_nil] at dropped

theorem relaid_trimStart (text : List Char) : Relaid true text (trimStart text) := by
  have blank : ∀ c ∈ text.takeWhile isBlank, isBlank c = true := Lexer.all_of_mem_takeWhile text
  have dropped := Relaid.dropBlanks blank (Relaid.refl true (trimStart text))
  rwa [trimStart, List.takeWhile_append_dropWhile] at dropped

theorem relaid_trimEnd (text : List Char) : Relaid true text (trimEnd text) := by
  obtain ⟨blanks, same, blank⟩ := trimEnd_append text
  have dropped := Relaid.dropEnd blank true (trimEnd text)
  rwa [← same] at dropped

theorem isBlank_of_isIndent {c : Char} (indent : isIndent c = true) : isBlank c = true := by
  rcases (by simpa [isIndent] using indent : c = ' ' ∨ c = '\t') with rfl | rfl <;> decide

theorem prefix_commonStart (text text' : List Char) : commonStart text text' <+: text := by
  fun_induction commonStart text text' with
  | case1 c text text' ih => exact List.cons_prefix_cons.mpr ⟨rfl, ih⟩
  | case2 => exact List.nil_prefix
  | case3 => exact List.nil_prefix

theorem prefix_foldl_commonStart (first : List Char) (others : List (List Char)) :
    others.foldl commonStart first <+: first := by
  induction others generalizing first with
  | nil => exact List.prefix_refl _
  | cons other others ih => exact (ih _).trans (prefix_commonStart first other)

/-- The margin is made of characters that indent. -/
theorem isIndent_of_mem_margin {c : Char} (member : c ∈ margin lines) : isIndent c = true := by
  rw [margin] at member
  split at member
  · cases member
  · next first others found =>
    have inside := (prefix_foldl_commonStart first others).subset member
    obtain ⟨line, -, rfl⟩ := List.mem_map.mp (found ▸ List.mem_cons_self .. : first ∈ _)
    exact Lexer.all_of_mem_takeWhile line c inside

theorem relaid_removeMargin {width : List Char} (indent : ∀ c ∈ width, isIndent c = true)
    (line : List Char) : Relaid true line (removeMargin width line) := by
  rw [removeMargin]
  split
  · next all =>
    exact relaid_nil fun c member => isBlank_of_isIndent (List.all_eq_true.mp all c member)
  split
  · next starts =>
    obtain ⟨rest, rfl⟩ := List.isPrefixOf_iff_prefix.mp starts
    rw [List.drop_left]
    exact .dropBlanks (fun c member => isBlank_of_isIndent (indent c member)) (.refl true rest)
  · exact .refl true line

theorem isBlank_of_mem_join (blank : ∀ line ∈ lines, isBlankText line = true) :
    ∀ c ∈ join '\n' lines, isBlank c = true := by
  induction lines with
  | nil => exact nofun
  | cons line lines ih =>
    have first : ∀ c ∈ line, isBlank c = true :=
      List.all_eq_true.mp (blank line (List.mem_cons_self ..))
    have others := ih fun other member => blank other (List.mem_cons_of_mem _ member)
    cases lines with
    | nil => exact first
    | cons next lines =>
      intro c member
      rw [join, List.mem_append, List.mem_cons] at member
      rcases member with member | rfl | member
      · exact first c member
      · decide
      · exact others c member

theorem relaid_dropWhile (lines : List (List Char)) :
    Relaid true (join '\n' lines) (join '\n' (lines.dropWhile isBlankText)) := by
  induction lines with
  | nil => exact .ended
  | cons line lines ih =>
    rw [List.dropWhile_cons]
    split
    · next blank =>
      have blank : ∀ c ∈ line, isBlank c = true := List.all_eq_true.mp blank
      cases lines with
      | nil => exact relaid_nil blank
      | cons next lines => exact .dropBlanks blank (.dropFront (by decide) ih)
    · exact .refl true _

theorem join_append {dropped : List (List Char)} (blank : ∀ line ∈ dropped, isBlankText line = true)
    (kept : List (List Char)) : ∃ blanks, join '\n' (kept ++ dropped) = join '\n' kept ++ blanks ∧
      ∀ c ∈ blanks, isBlank c = true := by
  induction kept with
  | nil => exact ⟨join '\n' dropped, rfl, isBlank_of_mem_join blank⟩
  | cons line kept ih =>
    obtain ⟨blanks, same, blank'⟩ := ih
    cases kept with
    | cons next kept =>
      refine ⟨blanks, ?_, blank'⟩
      rw [List.cons_append, List.cons_append, join, ← List.cons_append, same]
      simp [join]
    | nil =>
      cases dropped with
      | nil => exact ⟨[], by simp, by simp⟩
      | cons next dropped =>
        refine ⟨'\n' :: join '\n' (next :: dropped), rfl, fun c member => ?_⟩
        rcases List.mem_cons.mp member with rfl | member
        · decide
        · exact isBlank_of_mem_join blank c member

theorem relaid_dropEnd (lines : List (List Char)) :
    Relaid true (join '\n' lines) (join '\n' (lines.reverse.dropWhile isBlankText).reverse) := by
  have parts : (lines.reverse.dropWhile isBlankText).reverse ++
      (lines.reverse.takeWhile isBlankText).reverse = lines := by
    rw [← List.reverse_append, List.takeWhile_append_dropWhile, List.reverse_reverse]
  have blank : ∀ line ∈ (lines.reverse.takeWhile isBlankText).reverse, isBlankText line = true := by
    intro line member
    have all : (lines.reverse.takeWhile isBlankText).all isBlankText = true := List.all_takeWhile
    exact List.all_eq_true.mp all line (List.mem_reverse.mp member)
  obtain ⟨blanks, same, blank⟩ := join_append blank (lines.reverse.dropWhile isBlankText).reverse
  rw [parts] at same
  rw [same]
  exact .dropEnd blank true _

end Text

end SourceCanvas
