import Mathlib.Logic.Relation
import SourceCanvas.Program.Block
import SourceCanvas.Proofs.Margins

/-!
# The text of bodies

A captured body is the text between two braces laid out anew (`Text.rearranged_dedent`), and a body
that is written out is the captured one laid out anew once more (`rearranged_written`). What lies in
one line comes through unchanged. What does not cannot come through every indentation: a written
line starts with the spaces it is moved by, so that nothing which ends in a line with fewer
characters than these, and not with a blank, is found in the text (`not_infix_written`).
-/

namespace SourceCanvas

open SourceCanvas.Text (isBlank join split)

namespace Lexer

variable {allowed : Bool} {text text' : List Char} {lexemes : List (TokenKind × String)}

/-- Laid out anew in several rounds. -/
abbrev Rearranged : List Char → List Char → Prop := Relation.ReflTransGen (Relaid true)

theorem Spells.rearranged (spells : Spells allowed text lexemes)
    (rearranged : Rearranged text text')
    (flat : ∀ lexeme ∈ lexemes, '\n' ∉ lexeme.2.toList) (settled : Settled allowed lexemes) :
    Spells allowed text' lexemes := by
  induction rearranged with
  | refl => exact spells
  | tail _ relaid ih => exact ih.relaid relaid flat settled

/-- No lexeme ends with a blank. -/
theorem Spells.solid_end (spells : Spells allowed text lexemes) :
    ∀ lexeme ∈ lexemes, ∃ c, lexeme.2.toList.getLast? = some c ∧ isBlank c = false := by
  induction spells with
  | ended => nofun
  | space _ _ ih => exact ih
  | line _ _ _ ih => exact ih
  | block _ _ ih => exact ih
  | @lexeme _ kind first run _ _ _ _ last _ ih =>
    intro lexeme member
    rcases List.mem_cons.mp member with rfl | member
    · rw [String.toList_ofList]
      exact last
    · exact ih lexeme member

end Lexer

/-! ## Captured bodies -/

namespace Text

open Lexer (Relaid Rearranged)

theorem rearranged_bodyLines (text : List Char) : Rearranged text (join '\n' (bodyLines text)) := by
  have dropped := relaid_dropWhile (split '\n' text)
  rw [join_split] at dropped
  exact .tail (.single dropped) (relaid_dropEnd _)

/-- The lines that a body is captured from. A single line leaves its indentation behind. -/
def capturedLines (text : List Char) : List (List Char) :=
  match bodyLines text with
  | [line] => [trimStart line]
  | lines => lines

/-- What is captured of a text, be it nothing. -/
def captured (text : List Char) : List Char :=
  trim (join '\n' (((capturedLines text).map (removeMargin (margin (capturedLines text)))).map
    trimEnd))

theorem dedent?_eq (text : List Char) :
    dedent? text = if captured text = [] then none else some (captured text) := by
  rw [dedent?]
  split
  · next empty => exact (if_pos empty).symm
  · next filled => exact (if_neg filled).symm

theorem dedent?_eq_some_iff {text body : List Char} :
    dedent? text = some body ↔ captured text = body ∧ body ≠ [] := by
  rw [dedent?_eq]
  split
  · next empty => simp [empty]
  · next filled =>
    rw [Option.some.injEq]
    exact ⟨fun same => ⟨same, same ▸ filled⟩, And.left⟩

/-- What is captured of a text is the text laid out anew. -/
theorem rearranged_captured (text : List Char) : Rearranged text (captured text) := by
  have lines := rearranged_bodyLines text
  have taken : Rearranged text (join '\n' (capturedLines text)) := by
    rw [capturedLines]
    split
    · next line single =>
      rw [single] at lines
      exact lines.tail (relaid_trimStart line)
    · exact lines
  exact ((((taken
    |>.tail (.join (relaid_removeMargin fun _ => isIndent_of_mem_margin) _))
    |>.tail (.join relaid_trimEnd _))
    |>.tail (relaid_trimStart _))
    |>.tail (relaid_trimEnd _))

/-- A captured body is the text between the braces, laid out anew. -/
theorem rearranged_dedent {text body : List Char} (kept : dedent? text = some body) :
    Rearranged text body := by
  obtain ⟨rfl, -⟩ := dedent?_eq_some_iff.mp kept
  exact rearranged_captured text

theorem trimEnd_eq_nil {text : List Char} (blank : isBlankText (trimEnd text) = true) :
    trimEnd text = [] := by
  induction text with
  | nil => rfl
  | cons c text ih =>
    rw [trimEnd] at blank ⊢
    cases kept : trimEnd text with
    | nil =>
      rw [kept] at blank
      cases space : isBlank c with
      | true => rfl
      | false => simp [isBlankText, space] at blank
    | cons d rest =>
      rw [kept] at blank ih
      rw [isBlankText, List.all_cons, Bool.and_eq_true] at blank
      cases ih blank.2

/-- A captured body is not blank. -/
theorem isBlankText_dedent {text body : List Char} (kept : dedent? text = some body) :
    isBlankText body = false := by
  obtain ⟨rfl, filled⟩ := dedent?_eq_some_iff.mp kept
  exact Bool.eq_false_iff.mpr fun blank => filled (trimEnd_eq_nil blank)

theorem join_eq_intercalate (sep : Char) (pieces : List (List Char)) :
    join sep pieces = [sep].intercalate pieces := by
  induction pieces with
  | nil => rfl
  | cons piece pieces ih =>
    cases pieces with
    | nil => simp [join]
    | cons next pieces => rw [join, ih, List.intercalate_cons_cons, List.append_assoc]; rfl

/-- The pieces between the separators hold none. -/
theorem not_mem_of_mem_split {sep : Char} {text piece : List Char}
    (member : piece ∈ split sep text) :
    sep ∉ piece := by
  induction text generalizing piece with
  | nil =>
    obtain rfl : piece = [] := by simpa [split] using member
    exact List.not_mem_nil
  | cons c text ih =>
    rw [split] at member
    split at member
    · rcases List.mem_cons.mp member with rfl | member
      · exact List.not_mem_nil
      · exact ih member
    · next other =>
      cases pieces : split sep text with
      | nil => exact absurd pieces (split_ne_nil sep text)
      | cons first others =>
        rw [pieces] at member ih
        rcases List.mem_cons.mp member with rfl | member
        · rw [List.mem_cons, not_or]
          exact ⟨Ne.symm other, ih (List.mem_cons_self ..)⟩
        · exact ih (List.mem_cons_of_mem _ member)

end Text

/-! ## Written bodies -/

/-- A body written out, each of its lines moved by a step. -/
def writtenBody (step : Nat) (body : String) : String :=
  unlines (((split '\n' body.toList).map String.ofList).map (indented step 1))

/-- The characters of a line that is moved. -/
def moved (step : Nat) (line : List Char) : List Char :=
  if line = [] then [] else List.replicate step ' ' ++ line

variable {step : Nat} {lines : List (List Char)} {before behind : List Char}

theorem not_mem_moved (step : Nat) {line : List Char} (inLine : '\n' ∉ line) :
    '\n' ∉ moved step line := by
  rw [moved]
  split
  · exact List.not_mem_nil
  · simp [inLine]

theorem toList_writtenBody (step : Nat) (body : String) :
    (writtenBody step body).toList = join '\n' ((split '\n' body.toList).map (moved step)) := by
  have each (line : List Char) :
      (indented step 1 (String.ofList line)).toList = moved step line := by
    rw [indented, moved, Nat.one_mul]
    split
    · next empty =>
      have empty := congrArg String.toList empty
      rw [String.toList_ofList] at empty
      simp [empty]
    · next filled =>
      rw [if_neg fun empty => filled (by rw [empty]), String.toList_append, String.toList_ofList,
        String.toList_ofList]
  rw [writtenBody, unlines, String.toList_intercalate, Text.join_eq_intercalate, List.map_map,
    List.map_map]
  exact congrArg (List.intercalate ['\n']) (List.map_congr_left fun line _ => each line)

/-- What is written for a body is the body laid out anew. -/
theorem rearranged_written (step : Nat) (body : String) :
    Lexer.Rearranged body.toList (writtenBody step body).toList := by
  have each (line : List Char) : Lexer.Relaid true line (moved step line) := by
    rw [moved]
    split
    · next empty =>
      rw [empty]
      exact .ended
    · exact .indent step line
  have joined := Lexer.Relaid.join each (split '\n' body.toList)
  rw [Text.join_split] at joined
  rw [toList_writtenBody]
  exact .single joined

/-- A text as it stands at the start of a line that is moved: empty, or at the end of the line, or
behind the spaces it is moved by. -/
def AtMargin (step : Nat) (text : List Char) : Prop :=
  text = [] ∨ ['\n'] <+: text ∨ List.replicate step ' ' <+: text

theorem atMargin_join (step : Nat) (lines : List (List Char)) :
    AtMargin step (join '\n' (lines.map (moved step))) := by
  cases lines with
  | nil => exact .inl rfl
  | cons line lines =>
    by_cases empty : line = []
    · cases lines with
      | nil => simp [AtMargin, moved, empty, join]
      | cons next lines => exact .inr (.inl (by simp [moved, empty, join]))
    · refine .inr (.inr ?_)
      cases lines with
      | nil => simp [moved, empty, join]
      | cons next lines => simp [moved, empty, join, List.append_assoc]

/-- Behind every line feed a line starts at the margin. -/
theorem atMargin_of_parts (inLine : ∀ line ∈ lines, '\n' ∉ line)
    (parts : join '\n' (lines.map (moved step)) = before ++ '\n' :: behind) :
    AtMargin step behind := by
  -- a moved line holds no line feed, so the one that is given stands between two lines
  have inLine' : ∀ line ∈ lines, '\n' ∉ moved step line :=
    fun line member => not_mem_moved step (inLine line member)
  induction lines generalizing before with
  | nil => simp [join] at parts
  | cons line lines ih =>
    have first := inLine' line (List.mem_cons_self ..)
    cases lines with
    | nil =>
      rw [List.map_cons, List.map_nil, join] at parts
      rw [parts] at first
      simp at first
    | cons next lines =>
      rw [List.map_cons, List.map_cons, join, ← List.map_cons] at parts
      rcases List.append_eq_append_iff.mp parts with ⟨more, -, parts⟩ | ⟨more, parts, parts'⟩
      · cases more with
        | nil =>
          obtain ⟨-, rfl⟩ := List.cons.inj parts
          exact atMargin_join step (next :: lines)
        | cons c more =>
          obtain ⟨-, parts⟩ := List.cons.inj parts
          exact ih (fun line member => inLine line (List.mem_cons_of_mem _ member)) parts
            fun line member => inLine' line (List.mem_cons_of_mem _ member)
      · cases more with
        | nil =>
          obtain ⟨-, rfl⟩ := List.cons.inj parts'
          exact atMargin_join step (next :: lines)
        | cons c more =>
          obtain ⟨rfl, -⟩ := List.cons.inj parts'
          rw [parts] at first
          simp at first

/-- A run of characters over several lines, with no blank at its end, is not found in a body whose
lines are moved by as many spaces as it has characters. -/
theorem not_infix_written {run : List Char} (body : String) (several : '\n' ∈ run) {last : Char}
    (ends : run.getLast? = some last) (solid : isBlank last = false) :
    ¬run <:+: (writtenBody run.length body).toList := by
  rintro ⟨before, after, whole⟩
  obtain ⟨behind, front, flipped, inLine⟩ :=
    List.eq_append_cons_of_mem (List.mem_reverse.mpr several)
  -- the run up to its last line feed, and its last line
  have parts : run = front.reverse ++ '\n' :: behind.reverse := by
    rw [← List.reverse_reverse run, flipped]
    simp
  have ends' : behind.reverse.getLast? = some last := by
    cases same : behind.reverse with
    | nil =>
      rw [parts, same, List.getLast?_append] at ends
      cases ends
      cases solid
    | cons c rest =>
      rw [parts, same, List.getLast?_append, List.getLast?_cons_cons] at ends
      simpa using ends
  have short : behind.reverse.length ≤ run.length := by
    rw [parts, List.length_append, List.length_cons]
    omega
  have lines : ∀ line ∈ split '\n' body.toList, '\n' ∉ line := fun _ => Text.not_mem_of_mem_split
  have written : join '\n' ((split '\n' body.toList).map (moved run.length)) =
      (before ++ front.reverse) ++ '\n' :: (behind.reverse ++ after) := by
    rw [← toList_writtenBody, ← whole]
    conv_lhs => rw [parts]
    simp
  -- the last line of the run would stand at the margin, and be too short to reach beyond it
  rcases atMargin_of_parts lines written with empty | ended | spaces
  · rw [(List.append_eq_nil_iff.mp empty).1] at ends'
    cases ends'
  · cases same : behind.reverse with
    | nil =>
      rw [same] at ends'
      cases ends'
    | cons c rest =>
      rw [same] at ended
      obtain rfl : '\n' = c := (List.cons_prefix_cons.mp ended).1
      exact inLine (List.mem_reverse.mp (same ▸ List.mem_cons_self ..))
  · have blank : behind.reverse <+: List.replicate run.length ' ' :=
      List.prefix_of_prefix_length_le (List.prefix_append ..) spaces (by simpa using short)
    obtain rfl := List.eq_of_mem_replicate (blank.subset (List.mem_of_getLast? ends'))
    cases solid

end SourceCanvas
