import SourceCanvas.Proofs.BodyText
import SourceCanvas.Proofs.Tidying

/-!
# Bodies that are moved

Capturing a text drops blanks and nothing else, so that there is nothing to capture only if all of
it is blank (`dedent?_eq_none_iff`). What is captured starts and ends with something solid, and so
do its lines at their ends (`isBody_of_dedent`). A text of this form comes back from every
indentation: the moved lines share the spaces they are moved by as their margin, for the first line
has no others (`margin_moved`), and without it they are the lines they were (`tidy_moved`).
-/

namespace SourceCanvas

open SourceCanvas.Text

variable {text text' line : List Char} {start : Bool} {step : Nat}

/-! ## Nothing but blanks -/

namespace Lexer

theorem filter_blanks {blanks : List Char} (blank : ∀ c ∈ blanks, isBlank c = true) :
    blanks.filter (!isBlank ·) = [] :=
  List.filter_eq_nil_iff.mpr fun c member => by simp [blank c member]

/-- The same characters are solid however a text is laid out. -/
theorem Relaid.filter_solid (relaid : Relaid start text text') :
    text.filter (!isBlank ·) = text'.filter (!isBlank ·) := by
  induction relaid with
  | ended => rfl
  | keep later ih => rw [List.filter_cons, List.filter_cons, ih]
  | dropFront blank later ih => rw [List.filter_cons_of_neg (by simp [blank]), ih]
  | addFront later ih => rw [List.filter_cons_of_neg (by decide), ih]
  | dropBack blank ends later ih => rw [List.filter_append, filter_blanks blank, List.nil_append, ih]

theorem Rearranged.filter_solid (rearranged : Rearranged text text') :
    text.filter (!isBlank ·) = text'.filter (!isBlank ·) := by
  induction rearranged with
  | refl => rfl
  | tail _ relaid ih => exact ih.trans relaid.filter_solid

end Lexer

namespace Text

theorem filter_solid_eq_nil_iff : text.filter (!isBlank ·) = [] ↔ isBlankText text = true := by
  simp [isBlankText]

/-- Nothing is captured of a text just where it is blank. -/
theorem dedent?_eq_none_iff : dedent? text = none ↔ isBlankText text = true := by
  have solid := (rearranged_captured text).filter_solid
  have empty : isBlankText (captured text) = true ↔ captured text = [] := by
    refine ⟨trimEnd_eq_nil, fun none => ?_⟩
    rw [none]
    rfl
  rw [← filter_solid_eq_nil_iff, solid, filter_solid_eq_nil_iff, empty, dedent?_eq]
  split
  · next none => simp [none]
  · next filled => simp [filled]

/-! ## The form of a body -/

/-- No line of the text ends with a blank. -/
def SolidEnds (text : List Char) : Prop :=
  ∀ line ∈ split '\n' text, ∀ c ∈ line.getLast?, isBlank c = false

/-- A text of the form in which bodies are captured. The text without characters is none: of nothing
`Option.all` is true. -/
structure IsBody (body : List Char) : Prop where
  /-- it starts with a character that is no blank -/
  first : body.head?.all isBlank = false
  /-- it ends with a character that is no blank -/
  last : body.getLast?.all isBlank = false
  /-- none of its lines ends with a blank -/
  lines : SolidEnds body

theorem solidEnds_nil : SolidEnds [] := by
  simp [SolidEnds, split]

/-- The first line is empty where a text starts with the end of it. -/
theorem nil_first_iff {first : List Char} {others : List (List Char)}
    (parts : split '\n' text = first :: others) :
    first = [] ↔ ∀ c ∈ text.head?, c = '\n' := by
  cases text with
  | nil =>
    obtain ⟨rfl, -⟩ := List.cons.inj parts
    simp
  | cons d text =>
    rw [split] at parts
    split at parts
    · next same =>
      obtain ⟨rfl, -⟩ := List.cons.inj parts
      simp [same]
    · next other =>
      obtain ⟨line, lines, parts'⟩ := List.exists_cons_of_ne_nil (split_ne_nil '\n' text)
      rw [parts'] at parts
      obtain ⟨rfl, -⟩ := List.cons.inj parts
      simp [other]

/-- No blank but a line feed ends its line. -/
theorem solidEnds_cons {c : Char} :
    SolidEnds (c :: text) ↔
      ((∀ d ∈ text.head?, d = '\n') → isBlank c = true → c = '\n') ∧ SolidEnds text := by
  rw [SolidEnds, SolidEnds, split]
  split
  · next same => simp [same]
  next other =>
  obtain ⟨first, others, parts⟩ := List.exists_cons_of_ne_nil (split_ne_nil '\n' text)
  rw [parts, ← nil_first_iff parts]
  simp only [List.forall_mem_cons, ← and_assoc]
  refine and_congr_left fun _ => ?_
  cases first with
  | nil => simp [other]
  | cons d first => simp

theorem SolidEnds.trimStart (solid : SolidEnds text) : SolidEnds (trimStart text) := by
  rw [Text.trimStart]
  induction text with
  | nil => exact solid
  | cons c text ih =>
    rw [List.dropWhile_cons]
    split
    · exact ih (solidEnds_cons.mp solid).2
    · exact solid

theorem SolidEnds.trimEnd (solid : SolidEnds text) : SolidEnds (trimEnd text) := by
  induction text with
  | nil => exact solid
  | cons c text ih =>
    obtain ⟨first, later⟩ := solidEnds_cons.mp solid
    obtain ⟨blanks, parts, -⟩ := trimEnd_append text
    rw [Text.trimEnd]
    cases kept : Text.trimEnd text with
    | nil =>
      by_cases blank : isBlank c = true
      · simp [blank, solidEnds_nil]
      · rw [if_neg blank]
        exact solidEnds_cons.mpr ⟨fun _ space => absurd space blank, solidEnds_nil⟩
    | cons d rest =>
      -- what is kept starts like the text it is kept of
      rw [kept] at parts ih
      rw [parts] at first
      exact solidEnds_cons.mpr ⟨first, ih later⟩

/-- Lines that are trimmed make up a text whose lines are. -/
theorem solidEnds_join {lines : List (List Char)} (inLine : ∀ line ∈ lines, '\n' ∉ line) :
    SolidEnds (join '\n' (lines.map Text.trimEnd)) := by
  by_cases filled : lines.map Text.trimEnd = []
  · rw [filled]
    exact solidEnds_nil
  intro piece member c ends
  rw [split_join filled] at member
  obtain ⟨kept, among, inside⟩ := List.mem_flatMap.mp member
  obtain ⟨line, given, rfl⟩ := List.mem_map.mp among
  rw [split_of_inLine fun inside => inLine line given ((sublist_trimEnd line).subset inside),
    List.mem_singleton] at inside
  subst inside
  exact solid_of_trimEnd ends

theorem isBody_trim (solid : SolidEnds text) (filled : trim text ≠ []) : IsBody (trim text) := by
  obtain ⟨c, rest, parts⟩ := List.exists_cons_of_ne_nil filled
  obtain ⟨blanks, same, -⟩ := trimEnd_append (trimStart text)
  have first : isBlank c = false := by
    rw [trim] at parts
    rw [parts] at same
    exact Lexer.head_dropWhile (congrArg List.head? same)
  refine ⟨by rw [parts]; simpa using first, ?_, solid.trimStart.trimEnd⟩
  cases ends : (trim text).getLast? with
  | none => exact absurd (List.getLast?_eq_none_iff.mp ends) filled
  | some d => simpa using solid_of_trimEnd ends

theorem trimStart_of_first (first : line.head?.all isBlank = false) (step : Nat) :
    trimStart (List.replicate step ' ' ++ line) = line := by
  have spaces : ∀ c ∈ List.replicate step ' ', isBlank c = true := by
    intro c member
    rw [List.eq_of_mem_replicate member]
    decide
  rw [trimStart, List.dropWhile_append_of_pos spaces]
  cases line with
  | nil => rfl
  | cons c line => exact List.dropWhile_cons_of_neg (by simpa using first)

theorem mem_split_of_mem_bodyLines (member : line ∈ bodyLines text) : line ∈ split '\n' text := by
  have among := (List.dropWhile_sublist _).subset (List.mem_reverse.mp member)
  exact (List.dropWhile_sublist _).subset (List.mem_reverse.mp among)

/-- The lines that a body is captured from hold no line feeds. -/
theorem not_mem_of_mem_capturedLines (member : line ∈ capturedLines text) : '\n' ∉ line := by
  have inLine {line : List Char} (member : line ∈ bodyLines text) : '\n' ∉ line :=
    not_mem_of_mem_split (mem_split_of_mem_bodyLines member)
  rw [capturedLines] at member
  split at member
  · next single whole =>
    obtain rfl := List.mem_singleton.mp member
    have only : single ∈ bodyLines text := by simp [whole]
    exact fun inside => inLine only ((List.dropWhile_sublist _).subset inside)
  · exact inLine member

/-- What is captured has the form of a body. -/
theorem isBody_of_dedent {body : List Char} (kept : dedent? text = some body) : IsBody body := by
  obtain ⟨rfl, filled⟩ := dedent?_eq_some_iff.mp kept
  refine isBody_trim (solidEnds_join ?_) filled
  intro line member
  obtain ⟨line, among, rfl⟩ := List.mem_map.mp member
  intro inside
  exact not_mem_of_mem_capturedLines among ((sublist_removeMargin _ line).subset inside)

theorem IsBody.filled (body : IsBody text) : text ≠ [] := by
  rintro rfl
  cases body.first

theorem IsBody.trim (body : IsBody text) : trim text = text := by
  have started := trimStart_of_first body.first 0
  rw [List.replicate_zero, List.nil_append] at started
  rw [Text.trim, started, trimEnd_of_last body.last]

/-! ## Coming back to the margin -/

theorem moved_of_first (first : line.head?.all isBlank = false) (step : Nat) :
    moved step line = List.replicate step ' ' ++ line := by
  refine if_neg ?_
  rintro rfl
  cases first

theorem filled_firstLine (first : text.head?.all isBlank = false) (step : Nat) :
    ∀ line ∈ ((split '\n' text).map (moved step)).head?, isBlankText line = false := by
  obtain ⟨line, lines, parts⟩ := List.exists_cons_of_ne_nil (split_ne_nil '\n' text)
  have solid := head_of_split parts first
  simp [parts, moved_of_first solid, isBlankText_append solid]

theorem filled_lastLine (last : text.getLast?.all isBlank = false) (step : Nat) :
    ∀ line ∈ ((split '\n' text).map (moved step)).getLast?, isBlankText line = false := by
  cases ends : text.getLast? with
  | none =>
    rw [ends] at last
    cases last
  | some c =>
    obtain ⟨front, rfl⟩ := List.getLast?_eq_some_iff.mp ends
    have solid : isBlank c = false := by simpa using last
    have inLine : c ≠ '\n' := by
      rintro rfl
      cases solid
    obtain ⟨lines, line, -, parts⟩ := split_concat inLine front
    have behind : moved step (line ++ [c]) = (List.replicate step ' ' ++ line) ++ [c] := by
      simp [moved]
    have filled : isBlankText (moved step (line ++ [c])) = false := by
      rw [behind]
      exact isBlankText_append (by simpa using solid)
    simp [parts, filled]

/-- The spaces that lines are moved by are their margin. -/
theorem margin_moved (first : text.head?.all isBlank = false) (step : Nat) :
    margin ((split '\n' text).map (moved step)) = List.replicate step ' ' := by
  obtain ⟨line, lines, parts⟩ := List.exists_cons_of_ne_nil (split_ne_nil '\n' text)
  have solid := head_of_split parts first
  have started := moved_of_first solid step
  have member : moved step line ∈ (split '\n' text).map (moved step) := by simp [parts]
  have filled : ¬(moved step line).all isIndent = true := started ▸ not_indent solid _
  have shared : List.replicate step ' ' <+: margin ((split '\n' text).map (moved step)) := by
    refine (prefix_margin_iff member filled).mpr ?_
    intro line' member' filled'
    obtain ⟨line', -, rfl⟩ := List.mem_map.mp member'
    by_cases empty : line' = []
    · simp [moved, empty] at filled'
    · rw [moved, if_neg empty, List.takeWhile_append_of_pos (by simp [isIndent])]
      exact List.prefix_append ..
  -- the first line has no more spaces than these, so no more are shared
  have most := (prefix_margin_iff member filled).mp List.prefix_rfl _ member filled
  rw [started, takeWhile_isIndent solid] at most
  exact most.eq_of_length_le shared.length_le

/-- Without the spaces it is moved by, a line with no blank at its end is as it was. -/
theorem tidy_moved (solid : ∀ c ∈ line.getLast?, isBlank c = false) (step : Nat) :
    tidy (List.replicate step ' ') (moved step line) = line := by
  by_cases empty : line = []
  · simp [tidy, moved, empty, removeMargin, Text.trimEnd]
  obtain ⟨c, ends⟩ := Option.isSome_iff_exists.mp (List.getLast?_isSome.mpr empty)
  have last : line.getLast?.all isBlank = false := by simp [ends, solid c ends]
  have filled : ¬(List.replicate step ' ' ++ line).all isIndent = true := by
    intro all
    have indent := List.all_eq_true.mp all c
      (List.mem_append_right _ (List.mem_of_getLast? ends))
    have blank := isBlank_of_isIndent indent
    rw [solid c ends] at blank
    cases blank
  rw [tidy, moved, if_neg empty, removeMargin, if_neg filled,
    if_pos (List.isPrefixOf_iff_prefix.mpr (List.prefix_append ..)), List.drop_left,
    trimEnd_of_last last]

/-- All lines that are moved are lines of the body. -/
theorem bodyLines_moved (body : IsBody text) (step : Nat) :
    bodyLines ('\n' :: (mapLines (moved step) text ++ ['\n'])) =
      (split '\n' text).map (moved step) := by
  have lines : split '\n' (mapLines (moved step) text) = (split '\n' text).map (moved step) :=
    split_mapLines fun line member => not_mem_moved step (not_mem_of_mem_split member)
  rw [← lines]
  refine bodyLines_between ?_ ?_
  · rw [lines]
    exact filled_firstLine body.first step
  · rw [lines]
    exact filled_lastLine body.last step

/-- A single line is captured without the spaces it is moved by, several lines are with them. -/
theorem capturedLines_moved (body : IsBody text) (step : Nat) : ∃ count,
    capturedLines ('\n' :: (mapLines (moved step) text ++ ['\n'])) =
      (split '\n' text).map (moved count) := by
  rw [capturedLines, bodyLines_moved body]
  split
  · next line single =>
    obtain ⟨line, whole, rfl⟩ := List.map_eq_singleton_iff.mp single
    have solid := head_of_split whole body.first
    rw [moved_of_first solid, trimStart_of_first solid, whole]
    exact ⟨0, by simp [moved_of_first solid]⟩
  · exact ⟨step, rfl⟩

/-- A text in the form of a body comes back from every indentation. -/
theorem dedent?_moved (body : IsBody text) (step : Nat) :
    dedent? ('\n' :: (mapLines (moved step) text ++ ['\n'])) = some text := by
  obtain ⟨count, taken⟩ := capturedLines_moved body step
  have each : (split '\n' text).map
      ((trimEnd ∘ removeMargin (List.replicate count ' ')) ∘ moved count) = split '\n' text :=
    (List.map_congr_left fun line member => tidy_moved (body.lines line member) count).trans
      (List.map_id' _)
  rw [dedent?_eq_some_iff, captured, taken, margin_moved body.first, List.map_map, List.map_map,
    each, join_split, body.trim]
  exact ⟨rfl, body.filled⟩

end Text

/-- **Captured bodies.** Nothing is captured of a text just where it is blank. What is captured of it
otherwise neither starts nor ends with a blank and has no line that ends with one, and it is captured
again from the lines that are written for it, whatever they are moved by. -/
theorem dedent?_written (text : List Char) (step : Nat) :
    (dedent? text = none ↔ isBlankText text = true) ∧
    ∀ body, dedent? text = some body →
      IsBody body ∧
      dedent? ('\n' :: ((writtenBody step (String.ofList body)).toList ++ ['\n'])) = some body := by
  refine ⟨dedent?_eq_none_iff, ?_⟩
  intro body kept
  have form := isBody_of_dedent kept
  rw [toList_writtenBody, String.toList_ofList]
  exact ⟨form, dedent?_moved form step⟩

/-- Spaces and tabs are no common margin, a blank line has none, and other blanks go at the ends of
lines. -/
theorem dedent?_written_mixed :
    dedent? "\n\ta\r\n \n    b \n".toList = some "a\n\n    b".toList ∧
    IsBody "a\n\n    b".toList ∧
    (writtenBody 2 "a\n\n    b").toList = "  a\n\n      b".toList ∧
    dedent? "\n  a\n\n      b\n".toList = some "a\n\n    b".toList := by
  have captured : dedent? "\n\ta\r\n \n    b \n".toList = some "a\n\n    b".toList := by
    decide +kernel
  obtain ⟨form, again⟩ := (dedent?_written _ 2).2 _ captured
  have written : (writtenBody 2 "a\n\n    b").toList = "  a\n\n      b".toList := by
    decide +kernel
  rw [String.ofList_toList, written] at again
  exact ⟨captured, form, written, again⟩

end SourceCanvas
