import Mathlib.Data.List.Induction
import SourceCanvas.Catalog

/-!
# Grouping

`Catalog.grouped` lists items by a key that some of them have. Under each name stand the items with
this key, in their order (`get?_grouped`). Every item with a key is listed once and no other is
(`perm_grouped`), under names that are apart and that all have items.
-/

namespace SourceCanvas.Catalog

variable {α : Type} {key : α → Option String} {entries : Catalog (List α)}

/-- The items by their keys. Those without a key are left out. -/
def grouped (key : α → Option String) (items : List α) : Catalog (List α) :=
  items.foldl (fun found item => (key item).elim found (found.gather · item)) []

/-! ## One more value -/

theorem get?_gather (entries : Catalog (List α)) (name : String) (value : α) (other : String) :
    ((entries.gather name value).get? other).getD [] =
      (entries.get? other).getD [] ++ if other = name then [value] else [] := by
  rw [gather, get?_insert]
  split
  · next same => simp [same]
  · simp

theorem perm_gather (entries : Catalog (List α)) (name : String) (value : α) :
    ((entries.gather name value).flatMap Prod.snd).Perm (entries.flatMap Prod.snd ++ [value]) := by
  rw [gather]
  induction entries with
  | nil => simp [insert]
  | cons entry rest ih =>
    rw [insert, get?_cons]
    by_cases same : entry.1 = name
    · rw [if_pos same, if_pos same]
      simpa using (List.perm_append_singleton value (rest.flatMap Prod.snd)).symm.append_left entry.2
    · rw [if_neg same, if_neg same, List.flatMap_cons, List.flatMap_cons, List.append_assoc]
      exact ih.append_left entry.2

theorem filled_gather (filled : ∀ entry ∈ entries, entry.2 ≠ []) (name : String) (value : α) :
    ∀ entry ∈ entries.gather name value, entry.2 ≠ [] := by
  intro entry member
  rcases mem_of_insert member with before | rfl
  · exact filled entry before
  · simp

/-! ## All items -/

/-- Grouping takes one item after the other. -/
theorem grouped_concat (key : α → Option String) (items : List α) (item : α) :
    grouped key (items ++ [item]) =
      (key item).elim (grouped key items) ((grouped key items).gather · item) := by
  rw [grouped, List.foldl_append]
  rfl

/-- Under a name stand the items with this key, in their order. -/
theorem get?_grouped (key : α → Option String) (items : List α) (name : String) :
    ((grouped key items).get? name).getD [] = items.filter (key · == some name) := by
  induction items using List.reverseRecOn with
  | nil => rfl
  | append_singleton items item ih =>
    rw [grouped_concat, List.filter_append]
    cases found : key item with
    | none => simp [found, ih]
    | some other =>
      rw [Option.elim_some, get?_gather, ih]
      by_cases same : name = other
      · simp [found, same]
      · simp [found, same, Ne.symm same]

/-- Every item that has a key is listed once. -/
theorem perm_grouped (key : α → Option String) (items : List α) :
    ((grouped key items).flatMap Prod.snd).Perm (items.filter fun item => (key item).isSome) := by
  induction items using List.reverseRecOn with
  | nil => exact .refl []
  | append_singleton items item ih =>
    rw [grouped_concat, List.filter_append]
    cases found : key item with
    | none => simpa [found] using ih
    | some name =>
      simp only [Option.elim_some, List.filter_cons, found, Option.isSome_some, if_true,
        List.filter_nil]
      exact (perm_gather _ name item).trans (ih.append_right [item])

theorem nodup_names_grouped (key : α → Option String) (items : List α) :
    (grouped key items).names.Nodup := by
  induction items using List.reverseRecOn with
  | nil => exact List.nodup_nil
  | append_singleton items item ih =>
    rw [grouped_concat]
    cases key item with
    | none => exact ih
    | some name => exact nodup_names_insert ih

theorem filled_grouped (key : α → Option String) (items : List α) :
    ∀ entry ∈ grouped key items, entry.2 ≠ [] := by
  induction items using List.reverseRecOn with
  | nil => exact nofun
  | append_singleton items item ih =>
    rw [grouped_concat]
    cases key item with
    | none => exact ih
    | some name => exact filled_gather ih name item

/-- There is no entry under a name that no item has. -/
theorem get?_grouped_eq_none {items : List α} {name : String}
    (unused : ∀ item ∈ items, key item ≠ some name) : (grouped key items).get? name = none := by
  cases found : (grouped key items).get? name with
  | none => rfl
  | some values =>
    have here := get?_grouped key items name
    rw [found, Option.getD_some, List.filter_eq_nil_iff.mpr (by simpa using unused)] at here
    exact absurd here (filled_grouped key items _ (mem_of_get? found))

end SourceCanvas.Catalog
