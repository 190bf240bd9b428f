import SourceCanvas.Proofs.BodyText
import SourceCanvas.Proofs.RequestTemplate
import SourceCanvas.Proofs.Tidying

/-!
# Requests between margins

Between its braces a request stands behind the margins of its lines, with a body that goes on behind
line feeds without one. Capturing the text takes the shared margin away, and tidies the lines of the
body like all others (`dedent?_requestLines`). If there is only one line of it, all margins get
shorter by one step, and the template is found. A body of several lines either keeps the margin from
being a whole step, so that the last line of the template is not recognized, or has its own lines
tidied. Both come to nothing only without indentation (`request?_dedent_iff`).
-/

namespace SourceCanvas

open SourceCanvas.Text

namespace Text

variable {text line width : List Char} {lines : List (List Char)} {c : Char} {count step : Nat}

/-! ## A body in its place -/

/-- A text that hangs behind something in its first line, with its lines tidied. -/
def tidyHanging (width text : List Char) : List Char :=
  match split '\n' text with
  | [] => []
  | first :: others => join '\n' (trimEnd first :: others.map (tidy width))

theorem tidyHanging_eq (parts : split '\n' text = line :: lines) :
    tidyHanging width text = join '\n' (trimEnd line :: lines.map (tidy width)) := by
  rw [tidyHanging, parts]

/-- What hangs behind something is not tidied away where it starts with no blank. -/
theorem mapLines_tidy_hanging {label : List Char} (inLine : '\n' ∉ label)
    (solid : label.head?.all isBlank = false) (first : text.head?.all isBlank = false)
    (enough : count ≤ step) :
    mapLines (tidy (List.replicate count ' ')) (List.replicate step ' ' ++ (label ++ text)) =
      List.replicate (step - count) ' ' ++
        (label ++ tidyHanging (List.replicate count ' ') text) := by
  obtain ⟨line, lines, parts⟩ := List.exists_cons_of_ne_nil (split_ne_nil '\n' text)
  have spaces : '\n' ∉ List.replicate step ' ' ++ label := by simp [inLine]
  have started : (label ++ line).head?.all isBlank = false := by
    cases label with
    | nil => cases solid
    | cons c label => exact solid
  have kept := trimEnd_append_of_filled (trimEnd_ne_nil (head_of_split parts first)) label
  rw [← List.append_assoc, mapLines, split_behind spaces parts, List.map_cons, List.append_assoc,
    tidy_of_first started enough, kept, ← List.append_assoc, join_behind, List.append_assoc,
    tidyHanging_eq parts]

theorem trimEnd_concat (solid : isBlank c = false) (line : List Char) :
    trimEnd (line ++ [c]) = line ++ [c] :=
  trimEnd_of_last (by simpa using solid)

theorem tidy_concat (solid : isBlank c = false) (count : Nat) (line : List Char) :
    ∃ line', tidy (List.replicate count ' ') (line ++ [c]) = line' ++ [c] := by
  rw [tidy, removeMargin, if_neg (not_indent (by simpa using solid) line)]
  split
  · next starts =>
    obtain ⟨rest, parts⟩ := List.isPrefixOf_iff_prefix.mp starts
    have short : (List.replicate count ' ').length ≤ line.length := by
      -- otherwise the last character would be one of the spaces
      refine Nat.le_of_lt_succ (Nat.lt_of_not_le fun whole => ?_)
      have member : c ∈ List.replicate count ' ' := by
        have length := congrArg List.length parts
        simp only [List.length_append, List.length_singleton] at length
        obtain rfl : rest = [] := List.eq_nil_of_length_eq_zero (by omega)
        rw [List.append_nil] at parts
        simp [parts]
      rw [List.eq_of_mem_replicate member] at solid
      cases solid
    rw [List.drop_append_of_le_length short]
    exact ⟨_, trimEnd_concat solid _⟩
  · exact ⟨line, trimEnd_concat solid line⟩

/-- What ends with a character that is no blank does so when it is tidied. -/
theorem tidyHanging_concat (solid : isBlank c = false) (count : Nat) (text : List Char) :
    ∃ text', tidyHanging (List.replicate count ' ') (text ++ [c]) = text' ++ [c] := by
  have other : c ≠ '\n' := by
    rintro rfl
    cases solid
  obtain ⟨lines, line, -, parts⟩ := split_concat other text
  cases lines with
  | nil => exact ⟨line, by rw [tidyHanging_eq parts, trimEnd_concat solid]; rfl⟩
  | cons first lines =>
    obtain ⟨line', same⟩ := tidy_concat solid count line
    have parts : split '\n' (text ++ [c]) = first :: (lines ++ [line ++ [c]]) := parts
    rw [tidyHanging_eq parts, List.map_append, List.map_cons, List.map_nil, same,
      ← List.cons_append, join_append_lines (List.cons_ne_nil _ _) (List.cons_ne_nil _ _)]
    exact ⟨_ ++ '\n' :: line', by rw [List.append_assoc]; rfl⟩

theorem tidyHanging_eq_self_iff (parts : split '\n' text = line :: lines) :
    tidyHanging width text = text ↔
      trimEnd line = line ∧ ∀ line ∈ lines, tidy width line = line := by
  have fewer : List.Forall₂ List.Sublist (trimEnd line :: lines.map (tidy width))
      (line :: lines) := by
    refine .cons (sublist_trimEnd line) ?_
    rw [List.forall₂_map_left_iff, List.forall₂_same]
    exact fun line _ => sublist_tidy width line
  have whole := join_split '\n' text
  rw [parts] at whole
  rw [tidyHanging_eq parts, ← whole]
  constructor
  · intro same
    obtain ⟨first, others⟩ := List.cons.inj (eq_of_join_eq fewer same)
    exact ⟨first, List.map_inj_left.mp (others.trans (List.map_id' lines).symm)⟩
  · rintro ⟨first, others⟩
    rw [first, List.map_congr_left others, List.map_id']

/-- Without a margin only the blanks at the end of a line go. -/
theorem tidy_nil (line : List Char) : tidy [] line = trimEnd line := by
  rw [tidy, removeMargin]
  split
  · next all =>
    have blank : isBlankText (trimEnd line) = true := by
      refine List.all_eq_true.mpr fun c member => isBlank_of_isIndent ?_
      exact List.all_eq_true.mp all c ((sublist_trimEnd line).subset member)
    rw [trimEnd_eq_nil blank]
    rfl
  · rfl

/-- A line that stands behind the margin does not stay as it is. -/
theorem tidy_ne_self (starts : width <+: line) (margin : width ≠ [])
    (filled : ¬line.all isIndent = true) : tidy width line ≠ line := by
  intro same
  have short := (sublist_trimEnd (line.drop width.length)).length_le
  have long := starts.length_le
  have some := List.length_pos_iff.mpr margin
  rw [tidy, removeMargin, if_neg filled, if_pos (List.isPrefixOf_iff_prefix.mpr starts)] at same
  rw [same, List.length_drop] at short
  omega

end Text

namespace Template

variable {margin : Nat → List Char} {request : ApiAttributes} {step count : Nat}

/-! ## Lines of requests -/

/-- A text in one line that is solid at both ends. -/
structure Solid (line : List Char) : Prop where
  inLine : '\n' ∉ line
  first : line.head?.all isBlank = false
  last : line.getLast?.all isBlank = false

/-- A text in one line is solid between two others if these are solid at their outer ends. -/
theorem solid_between {front inner back : String}
    (starts : '\n' ∉ front.toList ∧ front.toList.head?.all isBlank = false)
    (inLine : '\n' ∉ inner.toList)
    (ends : '\n' ∉ back.toList ∧ back.toList.getLast?.all isBlank = false) :
    Solid (front ++ inner ++ back).toList := by
  have filled : back.toList ≠ [] := fun empty => by
    rw [empty] at ends
    cases ends.2
  rw [String.toList_append, String.toList_append]
  refine ⟨by simp [starts.1, inLine, ends.1], ?_, ?_⟩
  · cases chars : front.toList with
    | nil =>
      rw [chars] at starts
      cases starts.2
    | cons c rest =>
      rw [chars] at starts
      exact starts.2
  · rw [List.getLast?_append_of_ne_nil _ filled]
    exact ends.2

theorem solid_closingLines : ∀ line ∈ closingLines, Solid line.2.toList ∧ 1 ≤ line.1 := by
  have solid : ∀ line ∈ closingLines, '\n' ∉ line.2.toList ∧
      line.2.toList.head?.all isBlank = false ∧ line.2.toList.getLast?.all isBlank = false ∧
      1 ≤ line.1 := by decide +kernel
  intro line member
  obtain ⟨inLine, first, last, level⟩ := solid line member
  exact ⟨⟨inLine, first, last⟩, level⟩

theorem solid_headLines (request : ApiAttributes) :
    ∀ line ∈ headLines request, Solid line.2.toList ∧ 1 ≤ line.1 := by
  have string (text : String) : '\n' ∉ (Json.renderString text).toList := by
    simpa [Json.renderString] using Json.inLine_renderChars text.toList
  have fields : '\n' ∉ (Json.object (request.headers.map Json.textField)).render.toList := by
    simp [Json.render, Json.toList_renderFields, Json.inLine_entriesChars]
  simp only [headLines, List.forall_mem_cons]
  exact ⟨⟨solid_between (by decide +kernel) (string _) (by decide +kernel), Nat.le_refl 1⟩,
    ⟨solid_between (by decide +kernel) (string _) (by decide +kernel), by decide⟩,
    ⟨solid_between (by decide +kernel) fields (by decide +kernel), by decide⟩,
    List.forall_mem_nil _⟩

/-! ## From margin to margin -/

/-- The margins of a text that is written with a step. -/
def stepped (step level : Nat) : List Char := List.replicate (level * step) ' '

/-- What is left of these margins when some spaces are taken off all lines. -/
def unstepped (step count level : Nat) : List Char := List.replicate (level * step - count) ' '

/-- The body as it is read from a text that some spaces are taken off. -/
def tidyBody (count : Nat) (body : String) : String :=
  String.ofList (tidyHanging (List.replicate count ' ') (body.toList ++ [','])).dropLast

theorem tidyBody_concat (count : Nat) (body : String) :
    (tidyBody count body).toList ++ [','] =
      tidyHanging (List.replicate count ' ') (body.toList ++ [',']) := by
  obtain ⟨text, same⟩ := tidyHanging_concat (show isBlank ',' = false by decide) count body.toList
  rw [tidyBody, String.toList_ofList, same, List.dropLast_concat]

theorem placed_append (margin : Nat → List Char) (lines others : List (Nat × String)) :
    placed margin (lines ++ others) = placed margin lines ++ placed margin others :=
  List.map_append ..

theorem mapLines_tidy_line {line : Nat × String} (solid : Solid line.2.toList ∧ 1 ≤ line.1)
    (enough : count ≤ step) :
    mapLines (tidy (List.replicate count ' ')) (stepped step line.1 ++ line.2.toList) =
      unstepped step count line.1 ++ line.2.toList := by
  obtain ⟨solid, level⟩ := solid
  have inLine : '\n' ∉ stepped step line.1 ++ line.2.toList := by
    simp [stepped, solid.inLine]
  have more : count ≤ line.1 * step := Nat.le_trans enough (Nat.le_mul_of_pos_left step level)
  rw [mapLines_of_inLine _ inLine, stepped, tidy_of_first solid.first more,
    trimEnd_of_last solid.last, unstepped]

theorem toList_bodyLine (body : String) :
    (bodyLine body).toList = "body: ".toList ++ (body.toList ++ [',']) := by
  rw [bodyLine, String.toList_append, String.toList_append, List.append_assoc]
  rfl

theorem mapLines_tidy_bodyLine {body : String} (first : body.toList.head?.all isBlank = false)
    (enough : count ≤ step) :
    mapLines (tidy (List.replicate count ' ')) (stepped step 2 ++ (bodyLine body).toList) =
      unstepped step count 2 ++ (bodyLine (tidyBody count body)).toList := by
  have first' : (body.toList ++ [',']).head?.all isBlank = false := by
    cases chars : body.toList with
    | nil => decide
    | cons c text =>
      rw [chars] at first
      exact first
  rw [toList_bodyLine, toList_bodyLine, tidyBody_concat, stepped, unstepped,
    mapLines_tidy_hanging (by decide) (by decide) first' (by omega)]

/-- All lines of a request come nearer to the margin, and those of the body are tidied. -/
theorem mapLines_tidy_requestLines (enough : count ≤ step)
    (first : ∀ body ∈ request.body, body.toList.head?.all isBlank = false) :
    mapLines (tidy (List.replicate count ' ')) (margined (stepped step) (requestLines request)) =
      margined (unstepped step count)
        (requestLines { request with body := request.body.map (tidyBody count) }) := by
  have each {lines : List (Nat × String)}
      (solid : ∀ line ∈ lines, Solid line.2.toList ∧ 1 ≤ line.1) :
      (placed (stepped step) lines).map (mapLines (tidy (List.replicate count ' '))) =
        placed (unstepped step count) lines := by
    rw [placed, List.map_map]
    exact List.map_congr_left fun line member => mapLines_tidy_line (solid line member) enough
  have heads := each (solid_headLines request)
  have closing := each solid_closingLines
  have filled : placed (stepped step) (requestLines request) ≠ [] := by
    simp [placed, requestLines, headLines]
  rw [margined, mapLines_join _ filled, margined, requestLines, requestLines, placed_append,
    placed_append, placed_append, placed_append, List.map_append, List.map_append, heads, closing]
  have same : headLines { request with body := request.body.map (tidyBody count) } =
    headLines request := rfl
  rw [same]
  cases body : request.body with
  | none => rfl
  | some text =>
    have written := mapLines_tidy_bodyLine (first text body) enough
    simp only [placed, Option.map_some, Option.toList_some, List.map_cons, List.map_nil, written]

/-! ## The margin of a request -/

/-- The lines of a request, those of the body among them. -/
theorem split_requestLines (step : Nat) (request : ApiAttributes) :
    split '\n' (margined (stepped step) (requestLines request)) =
      placed (stepped step) (headLines request) ++
        ((request.body.map fun body => split '\n' (stepped step 2 ++ (bodyLine body).toList)).getD
          [] ++ placed (stepped step) closingLines) := by
  have flat {lines : List (Nat × String)}
      (solid : ∀ line ∈ lines, Solid line.2.toList ∧ 1 ≤ line.1) :
      (placed (stepped step) lines).flatMap (split '\n') = placed (stepped step) lines := by
    have single : ∀ text ∈ placed (stepped step) lines, split '\n' text = [text] := by
      intro text among
      obtain ⟨line, member, rfl⟩ := List.mem_map.mp among
      exact split_of_inLine (by simp [stepped, (solid line member).1.inLine])
    rw [List.flatMap_congr single, List.flatMap_singleton']
  have filled : placed (stepped step) (requestLines request) ≠ [] := by
    simp [placed, requestLines, headLines]
  rw [margined, split_join filled, requestLines, placed_append, placed_append, List.flatMap_append,
    List.flatMap_append, flat (solid_headLines request), flat solid_closingLines]
  cases body : request.body with
  | none => rfl
  | some body => simp [placed]

/-- A line at a level stands behind a step. -/
theorem prefix_stepped {line : String} (first : line.toList.head?.all isBlank = false)
    {level : Nat} (inside : 1 ≤ level) (step : Nat) :
    List.replicate step ' ' <+: (stepped step level ++ line.toList).takeWhile isIndent := by
  rw [stepped, takeWhile_isIndent first]
  exact List.prefix_replicate_iff.mpr
    ⟨by simpa using Nat.le_mul_of_pos_left step inside, by simp⟩

/-- All lines of a request stand behind a step if its body takes up one line. -/
theorem prefix_split_requestLines (inLine : ∀ body ∈ request.body, '\n' ∉ body.toList) :
    ∀ text ∈ split '\n' (margined (stepped step) (requestLines request)),
      List.replicate step ' ' <+: text.takeWhile isIndent := by
  intro text among
  have solid {lines : List (Nat × String)}
      (solid : ∀ line ∈ lines, Solid line.2.toList ∧ 1 ≤ line.1)
      (among : text ∈ placed (stepped step) lines) :
      List.replicate step ' ' <+: text.takeWhile isIndent := by
    obtain ⟨line, member, rfl⟩ := List.mem_map.mp among
    exact prefix_stepped (solid line member).1.first (solid line member).2 step
  rw [split_requestLines, List.mem_append, List.mem_append] at among
  rcases among with among | among | among
  · exact solid (solid_headLines request) among
  · cases body : request.body with
    | none =>
      rw [body] at among
      cases among
    | some written =>
      have single : '\n' ∉ stepped step 2 ++ (bodyLine written).toList := by
        simp [stepped, toList_bodyLine, inLine written body]
      rw [body, Option.map_some, Option.getD_some, split_of_inLine single] at among
      obtain rfl := List.mem_singleton.mp among
      exact prefix_stepped (by rw [toList_bodyLine]; rfl) (by decide) step
  · exact solid solid_closingLines among

/-- The margin is a part of one step, and the whole if the body takes up one line. -/
theorem margin_requestLines (step : Nat) (request : ApiAttributes) : ∃ count ≤ step,
    Text.margin (split '\n' (margined (stepped step) (requestLines request))) =
        List.replicate count ' ' ∧
      (∀ line ∈ split '\n' (margined (stepped step) (requestLines request)),
        ¬line.all isIndent = true → List.replicate count ' ' <+: line) ∧
      ((∀ body ∈ request.body, '\n' ∉ body.toList) → count = step) := by
  have lines := split_requestLines step request
  have behindStep := @prefix_split_requestLines request step
  generalize split '\n' (margined (stepped step) (requestLines request)) = found at lines behindStep
  have heads := solid_headLines request
  -- the first line stands behind one step
  obtain ⟨head, behind, parts⟩ : ∃ head behind, headLines request = (1, head) :: behind :=
    ⟨_, _, rfl⟩
  have first := (heads (1, head) (parts ▸ List.mem_cons_self ..)).1.first
  have member : stepped step 1 ++ head.toList ∈ found := by
    rw [lines, parts]
    exact List.mem_append_left _ (List.mem_cons_self ..)
  have filled := not_indent first (stepped step 1)
  have each := (prefix_margin_iff member filled).mp (List.prefix_refl (Text.margin found))
  have inside := each _ member filled
  rw [stepped, takeWhile_isIndent first, Nat.one_mul, List.prefix_replicate_iff] at inside
  refine ⟨(Text.margin found).length, inside.1, inside.2, fun line member filled => ?_,
    fun inLine => Nat.le_antisymm inside.1 ?_⟩
  · rw [← inside.2]
    exact (each line member filled).trans (List.takeWhile_prefix _)
  · have whole : List.replicate step ' ' <+: Text.margin found :=
      (prefix_margin_iff member filled).mpr fun text among _ => behindStep inLine text among
    simpa using whole.length_le

/-! ## Requests read from between braces -/

/-- A body that is read as it was written with a step: it stands in one line, or without a margin
and with no blank at the end of any of its lines but the last. -/
def Keeps (step : Nat) (body : String) : Prop :=
  '\n' ∉ body.toList ∨ step = 0 ∧ ∀ line ∈ (split '\n' body.toList).dropLast, trimEnd line = line

/-- A request ends with the line that returns the response. -/
theorem suffix_margined (margin : Nat → List Char) (request : ApiAttributes) :
    '\n' :: (margin 1 ++ "return response.json();".toList) <:+
      margined margin (requestLines request) := by
  have parts : requestLines request =
      (headLines request ++ ((request.body.map fun body => (2, bodyLine body)).toList ++
        closingLines.dropLast)) ++ [(1, "return response.json();")] := by
    rw [requestLines, List.append_assoc, List.append_assoc]
    rfl
  have filled : placed margin (headLines request ++
      ((request.body.map fun body => (2, bodyLine body)).toList ++ closingLines.dropLast)) ≠ [] :=
    by simp [placed, headLines]
  rw [margined, parts, placed_append, join_append_lines filled (by simp [placed])]
  exact List.suffix_append ..

/-- Blanks before a text that is solid at its end are all that is trimmed. -/
theorem trim_of_last {text : List Char} (last : text.getLast?.all isBlank = false) :
    trim text = text.dropWhile isBlank ∧ text.dropWhile isBlank ≠ [] := by
  have parts := List.takeWhile_append_dropWhile (p := isBlank) (l := text)
  have filled : text.dropWhile isBlank ≠ [] := by
    intro none
    cases ends : text.getLast? with
    | none =>
      rw [ends] at last
      cases last
    | some c =>
      rw [none, List.append_nil] at parts
      have blank : isBlank c = true :=
        Lexer.all_of_mem_takeWhile text c (parts.symm ▸ List.mem_of_getLast? ends)
      rw [ends, Option.all_some, blank] at last
      cases last
  rw [← parts, List.getLast?_append_of_ne_nil _ filled] at last
  exact ⟨trimEnd_of_last last, filled⟩

/-- What is written for a request is read from between braces without the margin. -/
theorem dedent?_requestLines {request : ApiAttributes}
    (first : ∀ body ∈ request.body, body.toList.head?.all isBlank = false) (step : Nat) :
    ∃ count ≤ step,
      dedent? ('\n' :: (margined (stepped step) (requestLines request) ++ ['\n'])) =
        some ((margined (unstepped step count)
          (requestLines { request with body := request.body.map (tidyBody count) })).dropWhile
            isBlank) ∧
      (∀ line ∈ split '\n' (margined (stepped step) (requestLines request)),
        ¬line.all isIndent = true → List.replicate count ' ' <+: line) ∧
      ((∀ body ∈ request.body, '\n' ∉ body.toList) → count = step) := by
  obtain ⟨count, enough, same, each, whole⟩ := margin_requestLines step request
  refine ⟨count, enough, ?_, each, whole⟩
  have tidied := mapLines_tidy_requestLines enough first
  have lines := split_requestLines step request
  have last : (margined (unstepped step count)
      (requestLines { request with body := request.body.map (tidyBody count) })).getLast?.all
        isBlank = false := by
    obtain ⟨front, parts⟩ := suffix_margined (unstepped step count)
      { request with body := request.body.map (tidyBody count) }
    rw [← parts, List.getLast?_append_of_ne_nil _ (List.cons_ne_nil _ _), ← List.cons_append,
      List.getLast?_append_of_ne_nil _ (by decide)]
    decide
  obtain ⟨trimmed, filled⟩ := trim_of_last last
  rw [dedent?_lines, same, tidied, trimmed]
  · split
    · next none => exact absurd none filled
    · rfl
  · rw [lines, List.length_append]
    exact Nat.lt_of_lt_of_le (show 1 < 3 by decide) (Nat.le_add_right ..)
  · rw [lines]
    intro line head
    obtain rfl := Option.some.inj head
    exact isBlankText_append (solid_headLines request _ (List.mem_cons_self ..)).1.first
  · have closing : placed (stepped step) closingLines ≠ [] := by simp [placed, closingLines]
    rw [lines, List.getLast?_append_of_ne_nil _ (List.append_ne_nil_of_right_ne_nil _ closing),
      List.getLast?_append_of_ne_nil _ closing]
    intro line ends
    obtain rfl := Option.some.inj ends
    exact isBlankText_append (by decide)

/-- A body is read as it was written if and only if it is one that is kept. -/
theorem tidyBody_eq_self_iff {body : String}
    (each : ∀ line ∈ (split '\n' (body.toList ++ [','])).tail,
      ¬line.all isIndent = true → List.replicate step ' ' <+: line) :
    tidyBody step body = body ↔ Keeps step body := by
  have chars : tidyBody step body = body ↔
      tidyHanging (List.replicate step ' ') (body.toList ++ [',']) = body.toList ++ [','] := by
    rw [← tidyBody_concat, List.append_left_inj, String.toList_inj]
  obtain ⟨lines, line, parts, parts'⟩ := split_concat (show ',' ≠ '\n' by decide) body.toList
  have ends := trimEnd_concat (show isBlank ',' = false by decide) line
  have inLine : '\n' ∉ body.toList ↔ lines = [] := by
    constructor
    · intro inLine
      rw [split_of_inLine inLine] at parts
      simpa using congrArg List.length parts
    · rintro rfl
      have whole := join_split '\n' body.toList
      rw [parts] at whole
      rw [← whole]
      have member : line ∈ split '\n' body.toList := by simp [parts]
      exact not_mem_of_mem_split member
  rw [chars, Keeps, inLine, parts, List.dropLast_concat]
  cases lines with
  | nil =>
    rw [tidyHanging_eq_self_iff parts', ends]
    simp
  | cons head lines =>
    have parts' : split '\n' (body.toList ++ [',']) = head :: (lines ++ [line ++ [',']]) := parts'
    rw [parts', List.tail_cons] at each
    rw [tidyHanging_eq_self_iff parts', List.forall_mem_append, List.forall_mem_singleton]
    cases step with
    | zero =>
      rw [List.replicate_zero, tidy_nil]
      simp [tidy_nil, ends]
    | succ step =>
      have last := tidy_ne_self (each _ (List.mem_append_right _ (List.mem_singleton_self _))
        (not_indent (by decide) line)) (by simp) (not_indent (by decide) line)
      simp [last]

/-- The lines of a body behind its first one are lines of the request. -/
theorem mem_split_requestLines {body : String} (given : body ∈ request.body) {line : List Char}
    (member : line ∈ (split '\n' (body.toList ++ [','])).tail) (step : Nat) :
    line ∈ split '\n' (margined (stepped step) (requestLines request)) := by
  obtain ⟨first, others, parts⟩ :=
    List.exists_cons_of_ne_nil (split_ne_nil '\n' (body.toList ++ [',']))
  rw [parts, List.tail_cons] at member
  have inLine : '\n' ∉ stepped step 2 ++ "body: ".toList := by simp [stepped]
  have lines := split_behind inLine parts
  rw [List.append_assoc, ← toList_bodyLine] at lines
  rw [split_requestLines, Option.mem_def.mp given, Option.map_some, Option.getD_some, lines]
  simp [member]

theorem dropWhile_margined (outer : margin 1 = []) (request : ApiAttributes) :
    (margined margin (requestLines request)).dropWhile isBlank =
      margined margin (requestLines request) := by
  rw [margined_requestLines, outer, List.nil_append]
  simp [show isBlank 'c' = false by decide]

/-- No request is found where a blank is left before its last line. -/
theorem request?_ne_of_lt (below : count < step) (name : String)
    (request found : ApiAttributes) :
    request? name ((margined (unstepped step count) (requestLines request)).dropWhile isBlank) ≠
      some found := by
  intro read
  have ends := (suffix_of_request? read).trans (List.dropWhile_suffix _)
  have behind := suffix_margined (unstepped step count) request
  have blank : ' ' :: "return response.json();".toList <:+
      '\n' :: (unstepped step count 1 ++ "return response.json();".toList) := by
    refine ⟨'\n' :: List.replicate (step - count - 1) ' ', ?_⟩
    have spaces : unstepped step count 1 = List.replicate (step - count - 1) ' ' ++ [' '] := by
      rw [unstepped, ← List.replicate_succ']
      congr 1
      omega
    rw [spaces, List.cons_append, List.append_assoc]
    rfl
  have same := List.suffix_of_suffix_length_le ends (blank.trans behind) (by decide)
  exact absurd (same.eq_of_length (by decide)) (by decide)

/-- **A request** is read from between braces as it was written if and only if its body is one that
is kept. -/
theorem request?_dedent_iff (name : String) (filled : request.method ≠ "")
    (capital : ∀ c ∈ request.method.toList, 'A' ≤ c ∧ c ≤ 'Z')
    (apart : (request.headers.map Prod.fst).Nodup)
    (first : ∀ body ∈ request.body, body.toList.head?.all isBlank = false) (step : Nat) :
    (dedent? ('\n' :: (margined (stepped step) (requestLines request) ++ ['\n']))).bind
        (request? name) = some { request with name } ↔
      ∀ body ∈ request.body, Keeps step body := by
  obtain ⟨count, enough, read, each, whole⟩ := dedent?_requestLines first step
  rw [read, Option.bind_some]
  obtain rfl | below := Nat.eq_or_lt_of_le enough
  · -- the request is found, with its body tidied
    have outer : unstepped count count 1 = [] := by simp [unstepped]
    have inner : ∀ c ∈ unstepped count count 2, isBlank c = true := by
      intro c member
      rw [List.eq_of_mem_replicate member]
      decide
    have kept : ∀ body ∈ request.body, tidyBody count body = body ↔ Keeps count body :=
      fun body given => tidyBody_eq_self_iff fun line member =>
        each line (mem_split_requestLines given member count)
    have found : request? name (margined (unstepped count count)
        (requestLines { request with body := request.body.map (tidyBody count) })) =
        some { request with body := request.body.map (tidyBody count), name } :=
      request?_requestLines name outer inner filled capital apart
    rw [dropWhile_margined outer, found]
    cases body : request.body with
    | none => simp
    | some text => simpa using kept text body
  · -- a margin is left, so no request is found
    refine iff_of_false (fun found => ?_) fun keeps => ?_
    · exact request?_ne_of_lt below name _ _ found
    · by_cases none : step = 0
      · omega
      · have flat : ∀ body ∈ request.body, '\n' ∉ body.toList := fun body given =>
          (keeps body given).resolve_right fun more => none more.1
        exact absurd (whole flat) (Nat.ne_of_lt below)

end Template

end SourceCanvas
