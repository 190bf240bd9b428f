import SourceCanvas.Proofs.CursorProgress

/-!
# When a descent is deep enough

A step is grounded if it asks the readers to go on with only at cursors that lie ahead of its own,
or with lower tasks. Then a descent comes to its bottom only if its depth is less than the weight of
what it starts with: two that are deep enough come to the same, whatever their bottoms answer.
-/

namespace SourceCanvas

variable {Task : Type} {Answer : Task → Type}

/-- A relation between a task at a cursor and what its reader may ask for. -/
abbrev Asking (Task : Type) : Type := Task → Cursor → Task → Cursor → Prop

/-- A relation between the answers to each task at a cursor. -/
abbrev Matching (Answer : Task → Type) : Type :=
  (task : Task) → Cursor → Answer task → Answer task → Prop

variable {asks : Asking Task} {same : Matching Answer} {step : Answers Answer → Answers Answer}

/-- If readers to go on with answer the same wherever the step may ask them from a cursor, it
answers the same there with the one as with the others. -/
def Grounded (asks : Asking Task) (same : Matching Answer)
    (step : Answers Answer → Answers Answer) : Prop :=
  ∀ (next next' : Answers Answer) (task : Task) (cursor : Cursor), cursor.fence.Closes →
    (∀ task' cursor', asks task cursor task' cursor' →
      same task' cursor' (next task' cursor') (next' task' cursor')) →
    same task cursor (step next task cursor) (step next' task cursor)

/-- Whatever is asked for weighs less, in the same window. -/
def Asking.Lighter (asks : Asking Task) (weight : Task → Cursor → Nat) : Prop :=
  ∀ task cursor task' cursor', asks task cursor task' cursor' →
    cursor.Reaches cursor' ∧ weight task' cursor' < weight task cursor

/-- A grounded step whose descents never come to their bottom from a depth on: neither what is
answered there nor the depth itself makes a difference. -/
structure Bottomless (asks : Asking Task) (same : Matching Answer)
    (step : Answers Answer → Answers Answer) (enough : Cursor → Nat) : Prop where
  grounded : Grounded asks same step
  deep : ∀ (bottom bottom' : Answers Answer) (depth depth' : Nat) (task : Task) (cursor : Cursor),
    cursor.fence.Closes → enough cursor ≤ depth → enough cursor ≤ depth' →
    same task cursor (descend step bottom depth task cursor)
      (descend step bottom' depth' task cursor)

/-- Descents of a grounded step come to the same if they are deeper than their tasks weigh. -/
theorem Grounded.descend {weight : Task → Cursor → Nat} (grounded : Grounded asks same step)
    (lighter : asks.Lighter weight) (bottom bottom' : Answers Answer) {depth depth' : Nat}
    {task : Task} {cursor : Cursor} (closed : cursor.fence.Closes)
    (deep : weight task cursor < depth) (deep' : weight task cursor < depth') :
    same task cursor (descend step bottom depth task cursor)
      (descend step bottom' depth' task cursor) := by
  induction depth generalizing depth' task cursor with
  | zero => exact absurd deep (Nat.not_lt_zero _)
  | succ depth ih =>
    cases depth' with
    | zero => exact absurd deep' (Nat.not_lt_zero _)
    | succ depth' =>
      refine grounded _ _ task cursor closed fun task' cursor' asked => ?_
      obtain ⟨reaches, less⟩ := lighter task cursor task' cursor' asked
      exact ih (reaches.closes closed) (by omega) (by omega)

theorem Grounded.bottomless {weight : Task → Cursor → Nat} {enough : Cursor → Nat}
    (grounded : Grounded asks same step) (lighter : asks.Lighter weight)
    (light : ∀ task cursor, weight task cursor < enough cursor) :
    Bottomless asks same step enough where
  grounded := grounded
  deep bottom bottom' _ _ task cursor closed deep deep' :=
    grounded.descend lighter bottom bottom' closed
      (Nat.lt_of_lt_of_le (light task cursor) deep)
      (Nat.lt_of_lt_of_le (light task cursor) deep')

/-! ## Loops -/

/-- A loop asks for what lies ahead only: each round for the next one, behind a token that it has
passed. -/
def ahead : Asking Task := fun _ cursor _ cursor' => cursor.Advances cursor'

/-- A loop needs no more rounds than there are tokens left, and one to find that there are none. -/
theorem Grounded.loop (grounded : Grounded ahead same step) :
    Bottomless ahead same step fun cursor => cursor.size + 1 :=
  have lighter : (ahead : Asking Task).Lighter fun _ cursor => cursor.size :=
    fun _ _ _ _ advances => ⟨advances.toReaches, advances.shorter⟩
  grounded.bottomless lighter fun _ cursor => Nat.lt_succ_self cursor.size

/-! ## Answers with a cursor -/

variable {α β : Type} {onward onward' : Cursor → Prop}

/-- Two answers are the same, and the cursor after what is found has got on. -/
def SameFound (onward : Cursor → Prop) (answer answer' : Option (α × Cursor)) : Prop :=
  answer = answer' ∧ ∀ found after, answer = some (found, after) → onward after

namespace SameFound

theorem none : SameFound onward (none : Option (α × Cursor)) none := ⟨rfl, nofun⟩

theorem some {found : α} {after : Cursor} (on : onward after) :
    SameFound onward (some (found, after)) (some (found, after)) := by
  refine ⟨rfl, ?_⟩
  rintro _ _ ⟨⟩
  exact on

theorem imp {answer answer' : Option (α × Cursor)} (same : SameFound onward answer answer')
    (weaker : ∀ after, onward after → onward' after) : SameFound onward' answer answer' :=
  ⟨same.1, fun found after read => weaker after (same.2 found after read)⟩

/-- Readers that are the same go on from what is found. -/
theorem bind {first first' : Option (α × Cursor)} {next next' : α × Cursor → Option (β × Cursor)}
    (same : SameFound onward first first')
    (later : ∀ found after, onward after →
      SameFound onward' (next (found, after)) (next' (found, after))) :
    SameFound onward' (first >>= next) (first' >>= next') := by
  obtain ⟨rfl, on⟩ := same
  cases first with
  | none => exact none
  | some pair => exact later pair.1 pair.2 (on _ _ rfl)

/-- What both read in the same way is gone on from. -/
theorem known {first : Option α} {next next' : α → Option (β × Cursor)}
    (later : ∀ found, first = Option.some found →
      SameFound onward' (next found) (next' found)) :
    SameFound onward' (first >>= next) (first >>= next') := by
  cases first with
  | none => exact none
  | some found => exact later found rfl

end SameFound

end SourceCanvas
