import SourceCanvas.Token.Cursor

/-!
# Descents

Readers that call each other are given by one step: what each of them does at a cursor, with readers
to go on with. A descent takes the step to a depth. Whoever is asked at its bottom has to answer for
all that lies deeper; a depth is enough if the bottom is never asked.
-/

namespace SourceCanvas

/-- What readers answer to each task at a cursor. -/
abbrev Answers {Task : Type} (Answer : Task → Type) : Type := (task : Task) → Cursor → Answer task

/-- Answers by a step, which goes on with answers of one depth less. -/
def descend {Task : Type} {Answer : Task → Type} (step : Answers Answer → Answers Answer)
    (bottom : Answers Answer) : Nat → Answers Answer
  | 0, task, cursor => bottom task cursor
  | depth + 1, task, cursor => step (descend step bottom depth) task cursor

end SourceCanvas
