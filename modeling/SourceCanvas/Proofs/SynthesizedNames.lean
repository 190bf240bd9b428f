import SourceCanvas.Proofs.WrittenTypes

/-!
# Made-up names

A name that is made up for a node is a word (`isWhole_synthesizedName`) that tells the kind of the
node, whatever its id is (`generatedKind?_synthesizedName`). No plain name does
(`PlainName.generatedKind?`), as made-up names have a low line.
-/

namespace SourceCanvas

open Naming (beginning beginnings generatedKind? synthesizedName isSafe)

variable {kind : NodeKind} {id : String}

/-- A plain name is not made up. -/
theorem PlainName.generatedKind? (name : PlainName) : Naming.generatedKind? name.text = none := by
  have letters := List.all_eq_true.mp name.isAlphanum
  rw [Naming.generatedKind?, Option.map_eq_none_iff, List.find?_eq_none]
  rintro ⟨kind, beginning⟩ - found
  simp only [Bool.and_eq_true] at found
  have starts := List.isPrefixOf_iff_prefix.mp found.1.1
  have low := letters '_' (starts.subset (List.mem_append_right _ (List.mem_singleton_self _)))
  cases low

/-- The end of a made-up name, which comes from an id. -/
def safeTail (id : String) : List Char := id.toList.map fun c => if isSafe c then c else '_'

theorem toList_synthesizedName (kind : NodeKind) (id : String) :
    (synthesizedName (some kind) id).toList =
      (beginning (some kind)).toList ++ '_' :: safeTail id := by
  simp [synthesizedName, safeTail]

theorem isSafe_safeTail (id : String) : (safeTail id).all isSafe = true := by
  refine List.all_eq_true.mpr fun c member => ?_
  obtain ⟨d, -, rfl⟩ := List.mem_map.mp member
  split
  · assumption
  · rfl

/-- A made-up name tells its kind. -/
theorem generatedKind?_synthesizedName (named : kind ∈ beginnings.map Prod.fst) (filled : id ≠ "") :
    generatedKind? (synthesizedName (some kind) id) = some kind := by
  have name := toList_synthesizedName kind id
  have safe := isSafe_safeTail id
  have rest : safeTail id ≠ [] := by simpa [safeTail] using filled
  have inLine : Naming.dropFinalNewline (synthesizedName (some kind) id).toList =
      (synthesizedName (some kind) id).toList := by
    refine if_neg fun last => ?_
    have member := List.mem_of_getLast? last
    rw [name, List.getLast?_append_of_ne_nil _ (List.cons_ne_nil _ _),
      List.getLast?_cons_of_ne_nil rest] at last
    have safe' := List.all_eq_true.mp safe '\n' (List.mem_of_getLast? last)
    cases safe'
  have spelled : ∀ entry ∈ beginnings, beginning (some entry.1) = entry.2 := by decide
  obtain ⟨entry, member, rfl⟩ := List.mem_map.mp named
  rw [generatedKind?, inLine, name, spelled entry member]
  simp only [beginnings, List.mem_cons, List.not_mem_nil, or_false] at member
  rcases member with rfl | rfl | rfl | rfl | rfl | rfl | rfl | rfl <;>
    simp [beginnings, safe, rest]

/-- A made-up name is a word. -/
theorem isWhole_synthesizedName (kind : NodeKind) (id : String) :
    Lexer.isWhole (synthesizedName (some kind) id).toList = true := by
  have tail : ∀ c ∈ safeTail id, Lexer.continuesWord c = true := fun c member => by
    have safe := List.all_eq_true.mp (isSafe_safeTail id) c member
    rw [isSafe, Bool.or_eq_true, decide_eq_true_eq] at safe
    rcases safe with letter | rfl
    · rw [Lexer.continuesWord, Text.isWord_of_isAlphanum letter, Bool.true_or]
    · rfl
  have whole : Lexer.isWhole (beginning (some kind)).toList = true := by
    cases kind <;> decide
  rw [toList_synthesizedName]
  revert whole
  cases (beginning (some kind)).toList with
  | nil =>
    intro none
    cases none
  | cons first others =>
    simp only [Lexer.isWhole, List.cons_append, Bool.and_eq_true, List.all_append, List.all_cons]
    rintro ⟨starts, goes⟩
    exact ⟨starts, goes, rfl, List.all_eq_true.mpr tail⟩

/-- A made-up name is none of the words without a low line. -/
theorem synthesizedName_ne (kind : NodeKind) (id : String) {word : String}
    (plain : '_' ∉ word.toList) : synthesizedName (some kind) id ≠ word := by
  rintro rfl
  exact plain (by rw [toList_synthesizedName]; simp)

end SourceCanvas
