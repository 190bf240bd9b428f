/-!
# Replacing parts of a text

Every occurrence of a part is replaced, from left to right and without overlap. An empty part occurs
before every character and at the end.
-/

namespace SourceCanvas.Text

/-- Replaces the occurrences of a nonempty part. The count tells how many characters of the last
occurrence are still to be left out. -/
def replaceFrom (old new : List Char) : Nat → List Char → List Char
  | _, [] => []
  | skip + 1, _ :: rest => replaceFrom old new skip rest
  | 0, c :: rest =>
    if old.isPrefixOf (c :: rest) then
      new ++ replaceFrom old new (old.length - 1) rest
    else
      c :: replaceFrom old new 0 rest

/-- Replaces all occurrences of a part. -/
def replace (old new text : List Char) : List Char :=
  if old.isEmpty then
    new ++ text.flatMap fun c => c :: new
  else
    replaceFrom old new 0 text

theorem replaceFrom_self (old : List Char) (given : old ≠ []) (skip : Nat) (text : List Char) :
    replaceFrom old old skip text = text.drop skip := by
  induction text generalizing skip with
  | nil => simp [replaceFrom]
  | cons c rest ih =>
    cases skip with
    | succ skip => simp [replaceFrom, ih]
    | zero =>
      rw [replaceFrom]
      split
      · next found =>
        obtain ⟨tail, here⟩ := List.isPrefixOf_iff_prefix.mp found
        cases old with
        | nil => exact absurd rfl given
        | cons first others =>
          obtain ⟨_, same⟩ := List.cons.inj here
          rw [ih, ← here, ← same]
          simp
      · simp [ih]

/-- Replacing a part by itself changes nothing. -/
theorem replace_self (old text : List Char) (given : old ≠ []) : replace old old text = text := by
  simp [replace, given, replaceFrom_self old given]

end SourceCanvas.Text
