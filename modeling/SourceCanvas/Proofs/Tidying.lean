import Mathlib.Data.List.Forall2
import SourceCanvas.Proofs.Margins

/-!
# Lines taken to the margin

A body of several lines is captured line by line: the shared margin goes at the start of each line
and blanks go at its end (`dedent?_lines`). A line with something solid behind as many spaces as the
margin has comes nearer to the margin (`tidy_of_first`). No line gets longer, so that a text stays
as it is only if all its lines do (`eq_of_join_eq`).
-/

namespace SourceCanvas.Text

variable {f : List Char → List Char} {text text' line width : List Char}
  {lines lines' : List (List Char)}

/-! ## Line by line -/

theorem split_of_inLine (inLine : '\n' ∉ text) : split '\n' text = [text] := by
  induction text with
  | nil => rfl
  | cons c text ih =>
    rw [List.mem_cons, not_or] at inLine
    rw [split, if_neg (Ne.symm inLine.1), ih inLine.2]

theorem split_append (text text' : List Char) :
    split '\n' (text ++ '\n' :: text') = split '\n' text ++ split '\n' text' := by
  induction text with
  | nil => rfl
  | cons c text ih =>
    rw [List.cons_append, split, split, ih]
    split
    · rfl
    · obtain ⟨first, others, parts⟩ := List.exists_cons_of_ne_nil (split_ne_nil '\n' text)
      rw [parts]
      rfl

theorem join_cons (filled : lines ≠ []) (line : List Char) :
    join '\n' (line :: lines) = line ++ '\n' :: join '\n' lines := by
  obtain ⟨next, others, rfl⟩ := List.exists_cons_of_ne_nil filled
  rfl

theorem join_append_lines (filled : lines ≠ []) (filled' : lines' ≠ []) :
    join '\n' (lines ++ lines') = join '\n' lines ++ '\n' :: join '\n' lines' := by
  induction lines with
  | nil => exact absurd rfl filled
  | cons line lines ih =>
    by_cases more : lines = []
    · rw [more, List.singleton_append, join_cons filled']
      rfl
    · rw [List.cons_append, join_cons (List.append_ne_nil_of_left_ne_nil more _), ih more,
        join_cons more, List.append_assoc]
      rfl

/-- A text with something done to each of its lines. -/
def mapLines (f : List Char → List Char) (text : List Char) : List Char :=
  join '\n' ((split '\n' text).map f)

theorem mapLines_of_inLine (f : List Char → List Char) (inLine : '\n' ∉ text) :
    mapLines f text = f text := by
  rw [mapLines, split_of_inLine inLine]
  rfl

theorem mapLines_append (f : List Char → List Char) (text text' : List Char) :
    mapLines f (text ++ '\n' :: text') = mapLines f text ++ '\n' :: mapLines f text' := by
  have filled (text : List Char) : (split '\n' text).map f ≠ [] := by simp [split_ne_nil]
  rw [mapLines, split_append, List.map_append, join_append_lines (filled text) (filled text')]
  rfl

/-- Lines that are put below each other are treated each on its own. -/
theorem mapLines_join (f : List Char → List Char) (filled : lines ≠ []) :
    mapLines f (join '\n' lines) = join '\n' (lines.map (mapLines f)) := by
  induction lines with
  | nil => exact absurd rfl filled
  | cons line lines ih =>
    by_cases more : lines = []
    · rw [more]
      rfl
    · rw [join_cons more, mapLines_append, ih more, List.map_cons,
        join_cons (by simpa using more)]

theorem split_join (filled : lines ≠ []) :
    split '\n' (join '\n' lines) = lines.flatMap (split '\n') := by
  induction lines with
  | nil => exact absurd rfl filled
  | cons line lines ih =>
    by_cases more : lines = []
    · rw [more]
      exact (List.append_nil _).symm
    · rw [join_cons more, split_append, ih more, List.flatMap_cons]

/-- Something in one line before a text stands in the first line of the text. -/
theorem split_behind (inLine : '\n' ∉ text) (parts : split '\n' text' = line :: lines) :
    split '\n' (text ++ text') = (text ++ line) :: lines := by
  induction text with
  | nil => exact parts
  | cons c text ih =>
    rw [List.mem_cons, not_or] at inLine
    rw [List.cons_append, split, if_neg (Ne.symm inLine.1), ih inLine.2]
    rfl

theorem join_behind (text line : List Char) (lines : List (List Char)) :
    join '\n' ((text ++ line) :: lines) = text ++ join '\n' (line :: lines) := by
  cases lines with
  | nil => rfl
  | cons next lines => exact List.append_assoc ..

/-- A text whose lines are changed has the changed lines. -/
theorem split_mapLines (inLine : ∀ line ∈ split '\n' text, '\n' ∉ f line) :
    split '\n' (mapLines f text) = (split '\n' text).map f := by
  rw [mapLines, split_join (by simpa using split_ne_nil '\n' text), List.flatMap_map]
  rw [List.flatMap_congr fun line member => split_of_inLine (inLine line member)]
  exact List.map_eq_flatMap.symm

theorem length_join_le (fewer : List.Forall₂ List.Sublist lines' lines) :
    (join '\n' lines').length ≤ (join '\n' lines).length := by
  induction fewer with
  | nil => exact Nat.le_refl 0
  | @cons line' line lines' lines shorter fewer ih =>
    have short := shorter.length_le
    cases fewer with
    | nil => exact short
    | cons next fewer =>
      rw [join_cons (List.cons_ne_nil _ _), join_cons (List.cons_ne_nil _ _), List.length_append,
        List.length_append, List.length_cons, List.length_cons]
      omega

/-- Where no line gets longer, a text stays as it is only if all its lines do. -/
theorem eq_of_join_eq (fewer : List.Forall₂ List.Sublist lines' lines)
    (same : join '\n' lines' = join '\n' lines) : lines' = lines := by
  induction fewer with
  | nil => rfl
  | @cons line' line lines' lines shorter fewer ih =>
    have short := shorter.length_le
    have fewer' := length_join_le fewer
    cases fewer with
    | nil => exact congrArg (· :: []) same
    | cons next fewer =>
      rw [join_cons (List.cons_ne_nil _ _), join_cons (List.cons_ne_nil _ _)] at same
      -- neither the line nor what follows has become longer, so both are as long as before
      have lengths := congrArg List.length same
      simp only [List.length_append, List.length_cons] at lengths
      obtain rfl := shorter.eq_of_length (by omega)
      rw [ih (List.cons.inj (List.append_cancel_left same)).2]

/-! ## Captured lines -/

/-- A line without the margin at its start and the blanks at its end. -/
def tidy (width line : List Char) : List Char := trimEnd (removeMargin width line)

/-- Between line feeds, lines the first and the last of which are not blank are all kept. -/
theorem bodyLines_between (first : ∀ line ∈ (split '\n' text).head?, isBlankText line = false)
    (last : ∀ line ∈ (split '\n' text).getLast?, isBlankText line = false) :
    bodyLines ('\n' :: (text ++ ['\n'])) = split '\n' text := by
  have pieces : split '\n' ('\n' :: (text ++ ['\n'])) = [] :: (split '\n' text ++ [[]]) := by
    rw [split, if_pos rfl, split_append]
    rfl
  have started (more : List (List Char)) :
      (split '\n' text ++ more).dropWhile isBlankText = split '\n' text ++ more := by
    obtain ⟨line, lines, parts⟩ := List.exists_cons_of_ne_nil (split_ne_nil '\n' text)
    rw [parts, List.head?_cons] at first
    rw [parts, List.cons_append,
      List.dropWhile_cons_of_neg (Bool.eq_false_iff.mp (first line rfl))]
  have ended : (split '\n' text).reverse.dropWhile isBlankText = (split '\n' text).reverse := by
    rw [← List.head?_reverse] at last
    obtain ⟨line, lines, parts⟩ := List.exists_cons_of_ne_nil
      (List.reverse_ne_nil_iff.mpr (split_ne_nil '\n' text))
    rw [parts, List.head?_cons] at last
    rw [parts, List.dropWhile_cons_of_neg (Bool.eq_false_iff.mp (last line rfl))]
  rw [bodyLines, pieces]
  simp only [List.dropWhile_cons_of_pos (show isBlankText [] = true from rfl), started,
    List.reverse_append, List.reverse_singleton, List.singleton_append, ended,
    List.reverse_reverse]

/-- A body of several lines, the first and the last of which are not blank, is captured line by
line. -/
theorem dedent?_lines (several : 1 < (split '\n' text).length)
    (first : ∀ line ∈ (split '\n' text).head?, isBlankText line = false)
    (last : ∀ line ∈ (split '\n' text).getLast?, isBlankText line = false) :
    dedent? ('\n' :: (text ++ ['\n'])) =
      match trim (mapLines (tidy (margin (split '\n' text))) text) with
      | [] => none
      | body => some body := by
  obtain ⟨line, next, others, parts⟩ :
      ∃ line next others, split '\n' text = line :: next :: others := by
    obtain ⟨line, lines, parts⟩ := List.exists_cons_of_ne_nil (split_ne_nil '\n' text)
    cases lines with
    | nil =>
      rw [parts] at several
      exact absurd several (Nat.lt_irrefl 1)
    | cons next others => exact ⟨line, next, others, parts⟩
  rw [dedent?, bodyLines_between first last, mapLines, parts]
  simp only [List.map_map]
  rfl

/-! ## Solid lines -/

theorem head_of_split (parts : split '\n' text = line :: lines)
    (first : text.head?.all isBlank = false) : line.head?.all isBlank = false := by
  cases text with
  | nil => cases first
  | cons c text =>
    rw [split] at parts
    split at parts
    · next same =>
      subst same
      cases first
    · obtain ⟨line', lines', parts'⟩ := List.exists_cons_of_ne_nil (split_ne_nil '\n' text)
      rw [parts'] at parts
      obtain ⟨rfl, -⟩ := List.cons.inj parts
      exact first

theorem split_concat {c : Char} (other : c ≠ '\n') (text : List Char) : ∃ lines line,
    split '\n' text = lines ++ [line] ∧ split '\n' (text ++ [c]) = lines ++ [line ++ [c]] := by
  induction text with
  | nil => exact ⟨[], [], rfl, by rw [List.nil_append, split, if_neg other]; rfl⟩
  | cons d text ih =>
    obtain ⟨lines, line, same, same'⟩ := ih
    rw [List.cons_append, split, split, same, same']
    by_cases ends : d = '\n'
    · exact ⟨[] :: lines, line, by rw [if_pos ends]; rfl, by rw [if_pos ends]; rfl⟩
    · rw [if_neg ends, if_neg ends]
      cases lines with
      | nil => exact ⟨[], d :: line, rfl, rfl⟩
      | cons first lines => exact ⟨(d :: first) :: lines, line, rfl, rfl⟩

theorem isBlankText_append {text text' : List Char} (first : text'.head?.all isBlank = false) :
    isBlankText (text ++ text') = false := by
  cases text' with
  | nil => cases first
  | cons c rest =>
    have solid : isBlank c = false := by simpa using first
    simp [isBlankText, solid]

theorem trimEnd_of_last (last : line.getLast?.all isBlank = false) : trimEnd line = line := by
  induction line with
  | nil => rfl
  | cons c line ih =>
    rw [trimEnd]
    cases line with
    | nil =>
      simp only [trimEnd]
      exact if_neg (by simpa using last)
    | cons d line =>
      rw [List.getLast?_cons_cons] at last
      rw [ih last]

theorem solid_of_trimEnd {c : Char} (ends : c ∈ (trimEnd text).getLast?) : isBlank c = false := by
  induction text with
  | nil => cases ends
  | cons d text ih =>
    rw [trimEnd] at ends
    cases kept : trimEnd text with
    | nil =>
      by_cases blank : isBlank d = true
      · simp [kept, blank] at ends
      · simp only [kept, if_neg blank, List.getLast?_singleton] at ends
        obtain rfl := Option.mem_some.mp ends
        exact Bool.eq_false_iff.mpr blank
    | cons e rest =>
      simp only [kept, List.getLast?_cons_cons] at ends
      exact ih (kept ▸ ends)

theorem trimEnd_append_of_filled (filled : trimEnd text' ≠ []) (text : List Char) :
    trimEnd (text ++ text') = text ++ trimEnd text' := by
  induction text with
  | nil => rfl
  | cons c text ih =>
    rw [List.cons_append, trimEnd, ih]
    cases kept : text ++ trimEnd text' with
    | nil => exact absurd (List.append_eq_nil_iff.mp kept).2 filled
    | cons d rest => rw [List.cons_append, kept]

theorem sublist_trimEnd (text : List Char) : (trimEnd text).Sublist text := by
  obtain ⟨blanks, same, -⟩ := trimEnd_append text
  have kept := List.sublist_append_left (trimEnd text) blanks
  rwa [← same] at kept

theorem sublist_removeMargin (width line : List Char) : (removeMargin width line).Sublist line := by
  rw [removeMargin]
  split
  · exact List.nil_sublist line
  split
  · exact List.drop_sublist ..
  · exact .refl line

theorem sublist_tidy (width line : List Char) : (tidy width line).Sublist line :=
  (sublist_trimEnd _).trans (sublist_removeMargin width line)

theorem not_indent (first : line.head?.all isBlank = false) (text : List Char) :
    ¬(text ++ line).all isIndent = true := by
  intro all
  cases line with
  | nil => cases first
  | cons c line =>
    have indent := List.all_eq_true.mp all c (by simp)
    rw [List.head?_cons, Option.all_some, isBlank_of_isIndent indent] at first
    cases first

theorem trimEnd_ne_nil (first : line.head?.all isBlank = false) : trimEnd line ≠ [] := by
  cases line with
  | nil => cases first
  | cons c line =>
    have solid : ¬isBlank c = true := fun blank => by
      rw [List.head?_cons, Option.all_some, blank] at first
      cases first
    rw [trimEnd]
    split
    · rw [if_neg solid]
      exact List.cons_ne_nil _ _
    · exact List.cons_ne_nil _ _

/-- A line behind spaces comes nearer to the margin. -/
theorem tidy_of_first (first : line.head?.all isBlank = false) {count step : Nat}
    (enough : count ≤ step) :
    tidy (List.replicate count ' ') (List.replicate step ' ' ++ line) =
      List.replicate (step - count) ' ' ++ trimEnd line := by
  have spaces : List.replicate step ' ' ++ line =
      List.replicate count ' ' ++ (List.replicate (step - count) ' ' ++ line) := by
    rw [← List.append_assoc, List.replicate_append_replicate, Nat.add_sub_cancel' enough]
  rw [tidy, removeMargin, if_neg (not_indent first _), spaces,
    if_pos (List.isPrefixOf_iff_prefix.mpr (List.prefix_append ..)), List.drop_left,
    trimEnd_append_of_filled (trimEnd_ne_nil first)]

/-! ## The margin -/

/-- Spaces that something solid stands behind are its indentation. -/
theorem takeWhile_isIndent (first : line.head?.all isBlank = false) (step : Nat) :
    (List.replicate step ' ' ++ line).takeWhile isIndent = List.replicate step ' ' := by
  have spaces : ∀ c ∈ List.replicate step ' ', isIndent c = true := by
    intro c member
    rw [List.eq_of_mem_replicate member]
    rfl
  rw [List.takeWhile_append_of_pos spaces]
  cases line with
  | nil => cases first
  | cons c line =>
    have other : ¬isIndent c = true := fun indent => by
      rw [List.head?_cons, Option.all_some, isBlank_of_isIndent indent] at first
      cases first
    rw [List.takeWhile_cons_of_neg other, List.append_nil]

theorem prefix_commonStart_iff :
    width <+: commonStart text text' ↔ width <+: text ∧ width <+: text' := by
  induction width generalizing text text' with
  | nil => simp
  | cons c width ih =>
    cases text with
    | nil => simp [commonStart]
    | cons a text =>
      cases text' with
      | nil => simp [commonStart]
      | cons b text' =>
        rw [commonStart]
        split
        · next same =>
          subst same
          rw [List.cons_prefix_cons, List.cons_prefix_cons, List.cons_prefix_cons, ih,
            and_and_and_comm, and_self]
        · next apart =>
          refine iff_of_false (by simp) fun ⟨starts, starts'⟩ => apart ?_
          rw [← (List.cons_prefix_cons.mp starts).1, (List.cons_prefix_cons.mp starts').1]

theorem prefix_foldl_iff {first : List Char} {others : List (List Char)} :
    width <+: others.foldl commonStart first ↔
      width <+: first ∧ ∀ other ∈ others, width <+: other := by
  induction others generalizing first with
  | nil => simp
  | cons other others ih =>
    rw [List.foldl_cons, ih, prefix_commonStart_iff, List.forall_mem_cons, and_assoc]

/-- The margin is what all lines that are not blank stand behind. -/
theorem prefix_margin_iff (member : line ∈ lines) (filled : ¬line.all isIndent = true) :
    width <+: margin lines ↔
      ∀ line ∈ lines, ¬line.all isIndent = true → width <+: line.takeWhile isIndent := by
  have among : line.takeWhile isIndent ∈
      (lines.filter fun line => !line.all isIndent).map (·.takeWhile isIndent) :=
    List.mem_map_of_mem (List.mem_filter.mpr ⟨member, by simpa using filled⟩)
  have each : (∀ line ∈ lines, ¬line.all isIndent = true → width <+: line.takeWhile isIndent) ↔
      ∀ indent ∈ (lines.filter fun line => !line.all isIndent).map (·.takeWhile isIndent),
        width <+: indent := by
    constructor
    · intro each indent among
      obtain ⟨other, inside, rfl⟩ := List.mem_map.mp among
      obtain ⟨inside, solid⟩ := List.mem_filter.mp inside
      exact each other inside (by simpa using solid)
    · intro each line member filled
      refine each _ (List.mem_map_of_mem (List.mem_filter.mpr ⟨member, ?_⟩))
      simpa using filled
  rw [each, margin]
  split
  · next none =>
    rw [none] at among
    cases among
  · next first others found =>
    rw [found, prefix_foldl_iff, List.forall_mem_cons]

end SourceCanvas.Text
