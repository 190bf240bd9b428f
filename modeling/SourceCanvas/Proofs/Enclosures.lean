import SourceCanvas.Proofs.PieceRuns

/-!
# What strings and templates enclose

A string, a template and the code in it are scanned with a stack of frames. `Fills` says of a text
that it goes on to the end of the outermost frame and no further, constructor by constructor as the
scan decides on the next character. A scan stops behind what fills its frames
(`fills_of_scanFrames`) and, whatever text follows, sees nothing else (`Fills.scan`).
-/

namespace SourceCanvas

namespace Lexer

variable {text run : List Char}

/-- What a scan of a string or template is inside of, wherever that starts. -/
inductive Enclosure where
  | quoted (mark : Char)
  | template
  | code (depth : Nat)

/-- What a frame encloses. -/
def Frame.enclosure : Frame → Enclosure
  | .quoted mark _ => .quoted mark
  | .template _ => .template
  | .code depth => .code depth

/-- A text that goes on to the end of the outermost of some enclosures, and no further. -/
inductive Fills : List Enclosure → List Char → Prop where
  | done : Fills [] []
  | quotedEscape {mark outer run} (c : Char) (later : Fills (.quoted mark :: outer) run) :
      Fills (.quoted mark :: outer) ('\\' :: c :: run)
  | quotedEnd {mark outer run} (plain : mark ≠ '\\') (later : Fills outer run) :
      Fills (.quoted mark :: outer) (mark :: run)
  | quotedChar {mark outer run c} (plain : c ≠ '\\') (other : c ≠ mark) (inLine : c ≠ '\n')
      (later : Fills (.quoted mark :: outer) run) : Fills (.quoted mark :: outer) (c :: run)
  | templateEscape {outer run} (c : Char) (later : Fills (.template :: outer) run) :
      Fills (.template :: outer) ('\\' :: c :: run)
  | templateEnd {outer run} (later : Fills outer run) : Fills (.template :: outer) ('`' :: run)
  | substitution {outer run} (later : Fills (.code 0 :: .template :: outer) run) :
      Fills (.template :: outer) ('$' :: '\x7b' :: run)
  | dollar {outer run} (other : run.head? ≠ some '\x7b') (later : Fills (.template :: outer) run) :
      Fills (.template :: outer) ('$' :: run)
  | templateChar {outer run c} (plain : c ≠ '\\') (other : c ≠ '`') (other' : c ≠ '$')
      (later : Fills (.template :: outer) run) : Fills (.template :: outer) (c :: run)
  | string {depth outer run mark} (quote : mark = '"' ∨ mark = '\'')
      (later : Fills (.quoted mark :: .code depth :: outer) run) :
      Fills (.code depth :: outer) (mark :: run)
  | innerTemplate {depth outer run} (later : Fills (.template :: .code depth :: outer) run) :
      Fills (.code depth :: outer) ('`' :: run)
  | brace {depth outer run} (later : Fills (.code (depth + 1) :: outer) run) :
      Fills (.code depth :: outer) ('\x7b' :: run)
  | closing {depth outer run} (later : Fills (.code depth :: outer) run) :
      Fills (.code (depth + 1) :: outer) ('\x7d' :: run)
  | codeEnd {outer run} (later : Fills outer run) : Fills (.code 0 :: outer) ('\x7d' :: run)
  | codeChar {depth outer run c} (quote : ¬(c = '"' ∨ c = '\'')) (other : c ≠ '`')
      (inside : c ≠ '\x7b') (inside' : c ≠ '\x7d') (later : Fills (.code depth :: outer) run) :
      Fills (.code depth :: outer) (c :: run)

/-- A text starts with what fills some enclosures, from one offset to another. -/
def FillsTo (enclosures : List Enclosure) (offset : Nat) (text : List Char) (stop : Nat) : Prop :=
  ∃ run after, text = run ++ after ∧ stop = offset + run.length ∧ Fills enclosures run

namespace FillsTo

variable {enclosures enclosures' : List Enclosure} {offset stop : Nat}

theorem cons {c : Char} (fills : FillsTo enclosures (offset + 1) text stop)
    (onward : ∀ run, run <+: text → Fills enclosures run → Fills enclosures' (c :: run)) :
    FillsTo enclosures' offset (c :: text) stop := by
  obtain ⟨run, after, rfl, rfl, fills⟩ := fills
  refine ⟨c :: run, after, rfl, ?_, onward run (List.prefix_append ..) fills⟩
  rw [List.length_cons]
  omega

theorem cons_cons {c d : Char} (fills : FillsTo enclosures (offset + 2) text stop)
    (onward : ∀ run, Fills enclosures run → Fills enclosures' (c :: d :: run)) :
    FillsTo enclosures' offset (c :: d :: text) stop := by
  obtain ⟨run, after, rfl, rfl, fills⟩ := fills
  refine ⟨c :: d :: run, after, rfl, ?_, onward run fills⟩
  rw [List.length_cons, List.length_cons]
  omega

end FillsTo

/-- A scan goes to the end of the outermost frame. -/
theorem fills_of_scanFrames {frames : List Frame} {offset stop : Nat}
    (scanned : scanFrames offset frames text = .ok stop) :
    FillsTo (frames.map Frame.enclosure) offset text stop := by
  -- the constructors of what fills enclosures are the ways in which a scan goes on
  fun_induction scanFrames offset frames text generalizing stop
  case case1 =>
    cases scanned
    exact ⟨[], _, rfl, rfl, .done⟩
  case case4 c _ ih => exact (ih scanned).cons_cons fun _ => .quotedEscape c
  case case5 plain ih => exact (ih scanned).cons fun _ _ => .quotedEnd plain
  case case7 plain other inLine ih =>
    exact (ih scanned).cons fun _ _ => .quotedChar plain other inLine
  case case9 c _ ih => exact (ih scanned).cons_cons fun _ => .templateEscape c
  case case10 ih => exact (ih scanned).cons fun _ _ => .templateEnd
  case case11 ih => exact (ih scanned).cons_cons fun _ => .substitution
  case case12 other _ _ ih =>
    refine (ih scanned).cons fun run inside => .dollar fun starts => ?_
    obtain ⟨rest, rfl⟩ := List.head?_eq_some_iff.mp starts
    obtain ⟨after, rfl⟩ := inside
    exact other (rest ++ after) rfl
  case case13 plain other other' ih =>
    exact (ih scanned).cons fun _ _ => .templateChar plain other other'
  case case14 quote ih => exact (ih scanned).cons fun _ _ => .string (by simpa using quote)
  case case15 ih => exact (ih scanned).cons fun _ _ => .innerTemplate
  case case16 ih => exact (ih scanned).cons fun _ _ => .brace
  case case17 ih => exact (ih scanned).cons fun _ _ => .codeEnd
  case case18 ih => exact (ih scanned).cons fun _ _ => .closing
  case case19 quote other inside inside' ih =>
    exact (ih scanned).cons fun _ _ =>
      .codeChar (by simpa using quote) other inside inside'
  -- where a scan stops with an error it gives no end
  all_goals cases scanned

theorem Fills.ne_nil {enclosure : Enclosure} {outer : List Enclosure}
    (fills : Fills (enclosure :: outer) run) : run ≠ [] := by
  rintro rfl
  cases fills

/-- What fills frames is all that a scan of them sees. -/
theorem Fills.scan {enclosures : List Enclosure} (fills : Fills enclosures run) (offset : Nat)
    {frames : List Frame} (same : frames.map Frame.enclosure = enclosures) (after : List Char) :
    scanFrames offset frames (run ++ after) = .ok (offset + run.length) := by
  have one (offset count : Nat) : offset + 1 + count = offset + (count + 1) := by omega
  have two (offset count : Nat) : offset + 2 + count = offset + (count + 1 + 1) := by omega
  induction fills generalizing offset frames
  case done =>
    obtain rfl : frames = [] := by simpa using same
    rw [scanFrames.eq_def]
    rfl
  -- otherwise a frame is open, and its first characters decide how the scan goes on
  all_goals
    obtain ⟨frame, frames, rfl, same, rfl⟩ := List.map_eq_cons_iff.mp same
    cases frame <;> cases same
    rw [List.cons_append, scanFrames.eq_def, List.length_cons]
  case quotedEscape.quoted.refl _ ih _ =>
    exact (ih _ rfl).trans (congrArg _ (two ..))
  case quotedEnd.quoted.refl plain _ ih _ =>
    simp only [plain]
    exact (ih _ rfl).trans (congrArg _ (one ..))
  case quotedChar.quoted.refl plain other inLine _ ih _ =>
    simp only [plain, other, inLine]
    exact (ih _ rfl).trans (congrArg _ (one ..))
  case templateEscape.template.refl ih _ =>
    exact (ih _ rfl).trans (congrArg _ (two ..))
  case substitution.template.refl ih _ =>
    exact (ih _ rfl).trans (congrArg _ (two ..))
  case dollar.template.refl run other later ih start =>
    cases run with
    | nil => exact absurd rfl later.ne_nil
    | cons c run =>
      have other : c ≠ '\x7b' := fun same => other (same ▸ rfl)
      have later := @ih (offset + 1) (.template start :: frames) rfl
      rw [one] at later
      simpa [other] using later
  case templateChar.template.refl plain other other' _ ih _ =>
    simp only [plain, other, other']
    exact (ih _ rfl).trans (congrArg _ (one ..))
  case string.code.refl quote _ ih =>
    rcases quote with rfl | rfl
    all_goals exact (ih _ rfl).trans (congrArg _ (one ..))
  case closing.code.refl ih =>
    exact (@ih _ (.code _ :: frames) rfl).trans (congrArg _ (one ..))
  case codeChar.code.refl quote other inside inside' _ ih =>
    rw [not_or] at quote
    simp only [quote, other, inside, inside']
    exact (ih _ rfl).trans (congrArg _ (one ..))
  case templateEnd.template.refl ih _ => exact (ih _ rfl).trans (congrArg _ (one ..))
  all_goals next ih => exact (ih _ rfl).trans (congrArg _ (one ..))

/-- What ends an enclosure. -/
def Enclosure.closing : Enclosure → Char
  | .quoted mark => mark
  | .template => '`'
  | .code _ => '\x7d'

/-- The last character of what fills enclosures ends the outermost one. -/
theorem Fills.getLast? {enclosures : List Enclosure} (fills : Fills enclosures run) :
    run.getLast? = enclosures.getLast?.map Enclosure.closing := by
  have onward {c : Char} {enclosure : Enclosure} {outer : List Enclosure} {run : List Char}
      (later : Fills (enclosure :: outer) run) : (c :: run).getLast? = run.getLast? := by
    obtain ⟨d, run, rfl⟩ := List.exists_cons_of_ne_nil later.ne_nil
    exact List.getLast?_cons_cons ..
  have ended {enclosure : Enclosure} {outer : List Enclosure} {run : List Char}
      (later : Fills outer run) (ih : run.getLast? = outer.getLast?.map Enclosure.closing) :
      (enclosure.closing :: run).getLast? =
        (enclosure :: outer).getLast?.map Enclosure.closing := by
    cases outer with
    | nil => cases later; rfl
    | cons next outer => rw [onward later, ih, List.getLast?_cons_cons]
  induction fills
  case done => rfl
  case quotedEscape later ih => rw [List.getLast?_cons_cons, onward later, ih]
  case quotedEnd later ih => exact @ended (.quoted _) _ _ later ih
  case quotedChar later ih => rw [onward later, ih]
  case templateEscape later ih => rw [List.getLast?_cons_cons, onward later, ih]
  case templateEnd later ih => exact @ended .template _ _ later ih
  case substitution later ih =>
    rw [List.getLast?_cons_cons, onward later, ih, List.getLast?_cons_cons]
  case dollar later ih => rw [onward later, ih]
  case templateChar later ih => rw [onward later, ih]
  case string later ih => rw [onward later, ih, List.getLast?_cons_cons]
  case innerTemplate later ih => rw [onward later, ih, List.getLast?_cons_cons]
  case brace outer _ later ih =>
    rw [onward later, ih]
    cases outer <;> rfl
  case closing outer _ later ih =>
    rw [onward later, ih]
    cases outer <;> rfl
  case codeEnd later ih => exact @ended (.code 0) _ _ later ih
  case codeChar later ih => rw [onward later, ih]

end Lexer

end SourceCanvas
