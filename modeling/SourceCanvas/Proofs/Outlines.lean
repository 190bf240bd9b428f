import SourceCanvas.Outline.Parser

/-!
# Outlines of single statements

A text whose tokens are those of one statement has the construct of that statement as its outline,
so its nodes are those of the construct (`parse_single`).
-/

namespace SourceCanvas

/-- The nodes of constructs one after the other. -/
theorem Construct.listNodes_append (parent : Option String) (constructs others : List Construct) :
    listNodes parent (constructs ++ others) =
      listNodes parent constructs ++ listNodes parent others := by
  induction constructs with
  | nil => rfl
  | cons construct constructs ih =>
    rw [List.cons_append, listNodes, ih, listNodes, List.append_assoc]

variable {reading : Reading} {tokens : List Token} {last : Token} {construct : Construct}

/-- A statement that all tokens belong to is the whole outline. -/
theorem Reading.outline_single (filled : tokens ≠ [])
    (read : reading.topStatement ⟨tokens, last⟩ = some ([construct], ⟨[], last⟩)) :
    reading.outline (tokens ++ [last]) = [construct] := by
  obtain ⟨first, rest, rfl⟩ := List.exists_cons_of_ne_nil filled
  have statement : StatementReader.orSkip reading.topStatement ⟨first :: rest, last⟩ =
      ([construct], ⟨[], last⟩) := by
    rw [StatementReader.orSkip, read]
    rfl
  have ended (fuel : Nat) : StatementReader.all reading.topStatement fuel ⟨[], last⟩ = [] := by
    cases fuel <;> rfl
  have started : (⟨first :: rest, last⟩ : Cursor).atEnd = false := rfl
  rw [outline, List.dropLast_concat, List.getLastD_concat, List.length_append,
    List.length_singleton, StatementReader.all, started, statement]
  simp [ended]

/-- The nodes of a text that is one statement are those of its construct. -/
theorem parse_single {reclassify : Bool} {text : String} (filled : tokens ≠ [])
    (tokenized : tokenize text = .ok (tokens ++ [last]))
    (read : Reading.topStatement ⟨text.toList, reclassify⟩ ⟨tokens, last⟩ =
      some ([construct], ⟨[], last⟩)) :
    parse reclassify text = .ok (construct.nodes none) := by
  have nodes := congrArg (Construct.listNodes none) (Reading.outline_single filled read)
  rw [Construct.listNodes, Construct.listNodes, List.append_nil] at nodes
  rw [parse, outline, tokenized]
  exact congrArg Except.ok nodes

end SourceCanvas
