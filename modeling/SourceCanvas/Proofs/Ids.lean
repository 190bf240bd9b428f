import SourceCanvas.Graph.Convert
import SourceCanvas.Supply

/-!
# Ids

Ids come from three places. Drawn ids are different for different counts (`Supply.idOf_inj`). The
ids of drawn and of parsed things are made of digits, letters and dashes, so the arrow in the id of
a containment edge can stand in no other id, and tells the ids of its ends apart
(`containmentId_inj`).
-/

namespace SourceCanvas

/-! ## Digits -/

namespace Digits

/-- The value of a hexadecimal digit. -/
def value (c : Char) : Nat := if c.isDigit then c.toNat - 48 else c.toNat - 87

/-- The number that hexadecimal digits stand for. -/
def number (digits : List Char) : Nat := digits.foldl (fun sofar c => 16 * sofar + value c) 0

theorem value_digitChar {n : Nat} (small : n < 16) : value n.digitChar = n := by
  have all : ∀ n < 16, value n.digitChar = n := by decide
  exact all n small

theorem number_append_digit (digits : List Char) (c : Char) :
    number (digits ++ [c]) = 16 * number digits + value c := by
  simp [number]

theorem number_toDigits (n : Nat) : number (Nat.toDigits 16 n) = n := by
  induction n using Nat.strongRecOn with
  | ind n ih =>
    by_cases small : n < 16
    · rw [Nat.toDigits_of_lt_base small]
      simp [number, value_digitChar small]
    · rw [Nat.toDigits_of_base_le (by decide) (by omega), number_append_digit, ih _ (by omega),
        value_digitChar (by omega)]
      omega

theorem number_zeros_append (count : Nat) (digits : List Char) :
    number (List.replicate count '0' ++ digits) = number digits := by
  induction count with
  | zero => rfl
  | succ count ih =>
    rw [List.replicate_succ, List.cons_append, ← ih]
    rfl

/-- The characters of hexadecimal numbers. -/
theorem mem_toDigits {c : Char} {n : Nat} (member : c ∈ Nat.toDigits 16 n) :
    ∃ digit < 16, c = digit.digitChar := by
  induction n using Nat.strongRecOn with
  | ind n ih =>
    by_cases small : n < 16
    · rw [Nat.toDigits_of_lt_base small, List.mem_singleton] at member
      exact ⟨n, small, member⟩
    · rw [Nat.toDigits_of_base_le (by decide) (by omega), List.mem_append,
        List.mem_singleton] at member
      rcases member with member | rfl
      · exact ih _ (by omega) member
      · exact ⟨n % 16, by omega, rfl⟩

end Digits

/-! ## Plain ids -/

/-- An id without the tip of an arrow. -/
def Plain (id : String) : Prop := '>' ∉ id.toList

instance (id : String) : Decidable (Plain id) := inferInstanceAs (Decidable ('>' ∉ id.toList))

theorem not_mem_toDigits (n : Nat) : '>' ∉ Nat.toDigits 16 n := by
  intro member
  obtain ⟨digit, small, same⟩ := Digits.mem_toDigits member
  have none : ∀ digit < 16, '>' ≠ Nat.digitChar digit := by decide
  exact none digit small same

theorem plain_nodeId (start stop : Int) (kind : String) : Plain (nodeId start stop kind) := by
  intro member
  rw [nodeId, String.toList_ofList] at member
  have member := List.mem_of_mem_take member
  rw [Digest.ofString, Digest.sha1, List.mem_flatMap] at member
  obtain ⟨word, -, member⟩ := member
  rw [Digest.hex8, List.mem_append] at member
  rcases member with member | member
  · rw [List.mem_replicate] at member
    exact absurd member.2 (by decide)
  · exact not_mem_toDigits _ member

theorem sha1_ne_nil (message : List UInt8) : Digest.sha1 message ≠ [] := by
  have filled (word : UInt32) : Digest.hex8 word ≠ [] := by
    intro none
    have short := congrArg List.length none
    simp only [Digest.hex8, List.length_append, List.length_replicate, List.length_nil] at short
    omega
  rw [Digest.sha1, List.flatMap_cons]
  exact List.append_ne_nil_of_left_ne_nil (filled _) _

theorem nodeId_ne_empty (start stop : Int) (kind : String) : nodeId start stop kind ≠ "" := by
  intro same
  have none := congrArg String.toList same
  rw [nodeId, String.toList_ofList, String.toList_empty, List.take_eq_nil_iff] at none
  exact none.elim (by decide) (sha1_ne_nil _)

namespace Supply

theorem digits_inj {count count' : Nat} (same : digits count = digits count') :
    count = count' := by
  have padded (count : Nat) : Digits.number (digits count).toList = count := by
    rw [digits, String.toList_ofList, Digits.number_zeros_append, Digits.number_toDigits]
  rw [← padded count, same, padded]

/-- What all ids of a series begin with. -/
def lead (series : String) : String := "00000000-0000-4000-" ++ series ++ "-"

theorem idOf_eq (series : String) (count : Nat) :
    idOf series count = lead series ++ digits count := rfl

theorem toList_idOf (series : String) (count : Nat) :
    (idOf series count).toList = (lead series).toList ++ (digits count).toList := by
  rw [idOf_eq, String.toList_append]

theorem idOf_inj {series : String} {count count' : Nat}
    (same : idOf series count = idOf series count') : count = count' := by
  have aligned : (lead series).toList ++ (digits count).toList =
      (lead series).toList ++ (digits count').toList := by
    rw [← toList_idOf, same, toList_idOf]
  exact digits_inj (String.ext (List.append_cancel_left aligned))

theorem append_dash_ne_nil (text : String) : (text ++ "-").toList ≠ [] := by
  have dash : "-".toList ≠ [] := by decide +kernel
  rw [String.toList_append]
  exact List.append_ne_nil_of_right_ne_nil _ dash

theorem idOf_ne_empty (series : String) (count : Nat) : idOf series count ≠ "" := by
  intro empty
  have nothing := toList_idOf series count
  rw [empty, String.toList_empty] at nothing
  exact List.append_ne_nil_of_left_ne_nil (append_dash_ne_nil _) _ nothing.symm

theorem plain_idOf {series : String} (plain : Plain (lead series)) (count : Nat) :
    Plain (idOf series count) := by
  intro member
  rw [toList_idOf, List.mem_append, digits, String.toList_ofList, List.mem_append] at member
  rcases member with member | member | member
  · exact plain member
  · rw [List.mem_replicate] at member
    exact absurd member.2 (by decide)
  · exact not_mem_toDigits _ member

theorem plain_drawNode (supply : Supply) : Plain supply.drawNode.1 :=
  plain_idOf (by decide +kernel) _

theorem plain_drawEdge (supply : Supply) : Plain supply.drawEdge.1 :=
  plain_idOf (by decide +kernel) _

end Supply

/-! ## Ids of containment edges -/

/-- A list is cut in one way only at the first place of an element. -/
theorem cut_inj {α : Type} {x : α} {as bs cs ds : List α} (first : x ∉ as) (first' : x ∉ cs)
    (same : as ++ x :: bs = cs ++ x :: ds) : as = cs ∧ bs = ds := by
  induction as generalizing cs with
  | nil =>
    cases cs with
    | nil => exact ⟨rfl, (List.cons.inj same).2⟩
    | cons c cs => exact absurd (List.mem_cons.mpr (.inl (List.cons.inj same).1)) first'
  | cons a as ih =>
    cases cs with
    | nil => exact absurd (List.mem_cons.mpr (.inl (List.cons.inj same).1.symm)) first
    | cons c cs =>
      obtain ⟨rfl, tails⟩ := List.cons.inj same
      obtain ⟨rfl, rest⟩ := ih (List.not_mem_of_not_mem_cons first)
        (List.not_mem_of_not_mem_cons first') tails
      exact ⟨rfl, rest⟩

theorem toList_containmentId (child parent : String) :
    (child ++ "->" ++ parent).toList = (child.toList ++ ['-']) ++ '>' :: parent.toList := by
  rw [String.toList_append, String.toList_append, List.append_assoc, List.append_assoc]
  rfl

theorem not_plain_containmentId (child parent : String) : ¬Plain (child ++ "->" ++ parent) := by
  intro plain
  refine plain ?_
  rw [toList_containmentId]
  exact List.mem_append_right _ (List.mem_cons_self ..)

/-- The id of a containment edge tells the ids of its ends. -/
theorem containmentId_inj {child parent child' parent' : String} (plain : Plain child)
    (plain' : Plain child') (same : child ++ "->" ++ parent = child' ++ "->" ++ parent') :
    child = child' ∧ parent = parent' := by
  have aligned := congrArg String.toList same
  rw [toList_containmentId, toList_containmentId] at aligned
  have before {id : String} (plain : Plain id) : '>' ∉ id.toList ++ ['-'] := by
    intro member
    rcases List.mem_append.mp member with inside | last
    · exact plain inside
    · exact absurd (List.mem_singleton.mp last) (by decide)
  obtain ⟨sameChild, sameParent⟩ := cut_inj (before plain) (before plain') aligned
  exact ⟨String.ext (List.append_cancel_right sameChild), String.ext sameParent⟩

end SourceCanvas
