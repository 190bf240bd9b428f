import SourceCanvas.Proofs.CursorLayout

/-!
# How cursors get on

A cursor reaches another one if it can be moved there: both stand in the same window, and the tokens
left are the last ones of those left before (`Cursor.Reaches`). It advances if a token is passed
(`Cursor.Advances`). Each primitive of cursors and each extent has a lemma here that tells which of
both it does. A token that closes nothing belongs to the window and can be passed, and this is why
readers get on that wait for such tokens.
-/

namespace SourceCanvas

namespace Cursor

/-- A cursor can be moved to another one in its window. -/
structure Reaches (cursor after : Cursor) : Prop where
  fence : after.fence = cursor.fence
  suffix : after.rest <:+ cursor.rest

/-- A cursor can be moved to another one, behind its next token. -/
structure Advances (cursor after : Cursor) : Prop extends Reaches cursor after where
  shorter : after.size < cursor.size

variable {cursor middle after : Cursor} {value : String} {token : Token}

/-! ## Moves -/

theorem Reaches.refl (cursor : Cursor) : cursor.Reaches cursor := ⟨rfl, List.suffix_refl _⟩

theorem Reaches.trans (first : cursor.Reaches middle) (second : middle.Reaches after) :
    cursor.Reaches after :=
  ⟨second.fence.trans first.fence, second.suffix.trans first.suffix⟩

theorem Reaches.size_le (reaches : cursor.Reaches after) : after.size ≤ cursor.size :=
  reaches.suffix.length_le

theorem Reaches.closes (reaches : cursor.Reaches after) (closed : cursor.fence.Closes) :
    after.fence.Closes :=
  reaches.fence ▸ closed

theorem Reaches.trans_advances (first : cursor.Reaches middle) (second : middle.Advances after) :
    cursor.Advances after :=
  ⟨first.trans second.toReaches, Nat.lt_of_lt_of_le second.shorter first.size_le⟩

theorem Advances.trans_reaches (first : cursor.Advances middle) (second : middle.Reaches after) :
    cursor.Advances after :=
  ⟨first.toReaches.trans second, Nat.lt_of_le_of_lt second.size_le first.shorter⟩

theorem Advances.trans (first : cursor.Advances middle) (second : middle.Advances after) :
    cursor.Advances after :=
  first.trans_reaches second.toReaches

theorem reaches_advance (cursor : Cursor) : cursor.Reaches cursor.advance :=
  ⟨rfl, List.tail_suffix cursor.rest⟩

theorem reaches_move {rest : List Token} (suffix : rest <:+ cursor.rest) :
    cursor.Reaches (cursor.move rest) :=
  ⟨rfl, suffix⟩

theorem advances_move {rest : List Token} (suffix : rest <:+ cursor.rest)
    (shorter : rest.length < cursor.rest.length) : cursor.Advances (cursor.move rest) :=
  ⟨reaches_move suffix, shorter⟩

/-- Where the window is not used up, its next token is passed. -/
theorem advances_of_inside (inside : ¬cursor.atEnd = true) : cursor.Advances cursor.advance := by
  refine ⟨reaches_advance cursor, ?_⟩
  have filled : cursor.rest ≠ [] := by simpa [atEnd] using inside
  have := List.length_pos_iff.mpr filled
  rw [size_advance]
  show cursor.rest.length - 1 < cursor.rest.length
  omega

/-- A next token that closes nothing is passed. -/
theorem advances_of_not_closes (closed : cursor.fence.Closes) (inside : ¬cursor.peek.Closes) :
    cursor.Advances cursor.advance := by
  refine advances_of_inside fun ended => inside ?_
  have used : cursor.rest = [] := by simpa [atEnd] using ended
  rw [peek, used]
  exact closed

theorem advances_of_isPunct (closed : cursor.fence.Closes)
    (punct : cursor.peek.isPunct value = true)
    (apart : [")", "]", "\x7d"].contains value = false) : cursor.Advances cursor.advance :=
  advances_of_not_closes closed (Token.not_closes_of_isPunct punct apart)

theorem advances_of_identifier (closed : cursor.fence.Closes)
    (word : cursor.peek.kind = .identifier) : cursor.Advances cursor.advance :=
  advances_of_not_closes closed (Token.not_closes_of_identifier word)

/-- Moving on or staying, as a condition says. -/
theorem reaches_advance_if {p : Prop} [Decidable p] :
    cursor.Reaches (if p then cursor.advance else cursor) := by
  split
  · exact reaches_advance cursor
  · exact .refl cursor

theorem reaches_skipPunct : cursor.Reaches (cursor.skipPunct value) := by
  rw [skipPunct]
  exact reaches_advance_if

theorem reaches_expectPunct (read : cursor.expectPunct value = some (token, after)) :
    cursor.Reaches after := by
  rw [expectPunct] at read
  split at read
  · cases read
    exact reaches_advance cursor
  · cases read

theorem advances_expectPunct (closed : cursor.fence.Closes)
    (apart : [")", "]", "\x7d"].contains value = false)
    (read : cursor.expectPunct value = some (token, after)) : cursor.Advances after := by
  rw [expectPunct] at read
  split at read
  · next punct =>
    cases read
    exact advances_of_isPunct closed punct apart
  · cases read

theorem advances_expectIdentifier (closed : cursor.fence.Closes)
    (read : cursor.expectIdentifier = some (token, after)) : cursor.Advances after := by
  rw [expectIdentifier] at read
  split at read
  · next word =>
    cases read
    exact advances_of_identifier closed word
  · cases read

theorem reaches_expectWord (read : cursor.expectWord value = some (token, after)) :
    cursor.Reaches after := by
  rw [expectWord] at read
  split at read
  · cases read
    exact reaches_advance cursor
  · cases read

theorem reaches_expectString (read : cursor.expectString = some (token, after)) :
    cursor.Reaches after := by
  rw [expectString] at read
  split at read
  · cases read
    exact reaches_advance cursor
  · cases read

theorem reaches_endStatement (read : cursor.endStatement = some after) : cursor.Reaches after := by
  rw [endStatement] at read
  split at read
  · cases read
    exact reaches_advance cursor
  split at read
  · cases read
    exact .refl cursor
  · cases read

theorem advances_memberName (closed : cursor.fence.Closes)
    (read : cursor.memberName = some (token, after)) : cursor.Advances after := by
  have opens : cursor.Reaches (cursor.skipPunct "#") := reaches_skipPunct
  exact opens.trans_advances (advances_expectIdentifier (opens.closes closed) read)

end Cursor

/-! ## Extents -/

namespace Extent

open Cursor

variable {tokens rest : List Token} {cursor after : Cursor} {token : Token}

theorem advances_balanced (read : balanced cursor = some (token, after)) :
    cursor.Advances after := by
  obtain ⟨⟨inner, closer, behind⟩, enclosed, same⟩ := Option.map_eq_some_iff.mp read
  cases same
  obtain ⟨parts, -⟩ := eq_of_enclosed? enclosed
  refine advances_move ?_ ?_
  · rw [parts]
    exact ⟨inner ++ [token], by simp⟩
  · rw [parts]
    simp only [List.length_append, List.length_cons]
    omega

theorem reaches_type? {ending : TypeEnd} {span : Span}
    (read : type? cursor ending = some (span, after)) : cursor.Reaches after := by
  rw [type?] at read
  split at read
  · next last rest run =>
    cases read
    exact reaches_move ((scan_typeRun ending).suffix (0, 0, none) (by rw [run]))
  · cases read

theorem reaches_typeParameters (read : typeParameters cursor = some after) :
    cursor.Reaches after := by
  rw [typeParameters] at read
  split at read
  · obtain ⟨rest, run, same⟩ := Option.map_eq_some_iff.mp read
    cases same
    exact reaches_move (scan_typeParametersRun.suffix 0 run)
  · cases read
    exact .refl cursor

/-- A list of type arguments is passed. -/
theorem advances_typeArguments? (closed : cursor.fence.Closes)
    (run : (if cursor.peek.isPunct "<" then typeArguments? 0 cursor.rest else none) = some rest) :
    cursor.Advances (cursor.move rest) := by
  split at run
  · next opener =>
    exact (advances_of_isPunct closed opener (by decide)).trans_reaches
      (reaches_move (typeArguments?_suffix run))
  · cases run

theorem advances_assertedType {stop : Nat} (closed : cursor.fence.Closes)
    (read : assertedType cursor = some (stop, after)) : cursor.Advances after := by
  rw [assertedType] at read
  split at read
  · next word =>
    cases read
    exact advances_of_identifier closed (Token.kind_of_isWord word)
  · obtain ⟨⟨name, middle⟩, nameRead, read⟩ := Option.bind_eq_some_iff.mp read
    obtain ⟨⟨stop', rest⟩, dotted, read⟩ := Option.bind_eq_some_iff.mp read
    refine (advances_expectIdentifier closed nameRead).trans_reaches ?_
    cases read
    have named : rest <:+ middle.rest := scan_dottedName.suffix name.stop (by rw [dotted]; rfl)
    refine reaches_move (.trans (scan_arrayMarks.suffix _ rfl) (.trans ?_ named))
    split
    · split
      · exact scan_angleRun.suffix (0, stop') rfl
      · exact List.suffix_refl _
    · exact List.suffix_refl _

end Extent

/-! ## Parts of expressions -/

namespace Cursor

variable {cursor after : Cursor} {token : Token}

theorem reaches_dropModifiers : cursor.Reaches (cursor.move (dropModifiers cursor.rest)) :=
  reaches_move (scan_dropModifiers.suffix () rfl)

theorem advances_arrowParameters (closed : cursor.fence.Closes)
    (read : cursor.arrowParameters = some (token, after)) : cursor.Advances after := by
  rw [arrowParameters] at read
  split at read
  · exact Extent.advances_balanced read
  · exact advances_expectIdentifier closed read

theorem reaches_arrowType (read : cursor.arrowType = some after) : cursor.Reaches after := by
  rw [arrowType] at read
  split at read
  · obtain ⟨⟨span, behind⟩, typeRead, same⟩ := Option.map_eq_some_iff.mp read
    cases same
    exact (reaches_advance cursor).trans (Extent.reaches_type? typeRead)
  · cases read
    exact .refl cursor

theorem advances_parameterName (closed : cursor.fence.Closes)
    (read : cursor.parameterName = some (token, after)) : cursor.Advances after := by
  rw [parameterName] at read
  split at read
  · exact Extent.advances_balanced read
  · exact advances_expectIdentifier closed read

theorem reaches_parameterType {span : Option Span}
    (read : cursor.parameterType = some (span, after)) : cursor.Reaches after := by
  rw [parameterType] at read
  split at read
  · obtain ⟨⟨span, behind⟩, typeRead, same⟩ := Option.map_eq_some_iff.mp read
    cases same
    exact (reaches_advance cursor).trans (Extent.reaches_type? typeRead)
  · cases read
    exact .refl cursor

theorem reaches_resultType {stops : List String} {span : Option Span}
    (read : cursor.resultType stops = some (span, after)) : cursor.Reaches after := by
  rw [resultType] at read
  split at read
  · obtain ⟨⟨span, behind⟩, typeRead, same⟩ := Option.map_eq_some_iff.mp read
    cases same
    exact (reaches_advance cursor).trans (Extent.reaches_type? typeRead)
  · cases read
    exact .refl cursor

theorem advances_closedBody (read : cursor.closedBody = some (token, after)) :
    cursor.Advances after := by
  rw [closedBody] at read
  split at read
  · exact Extent.advances_balanced read
  · cases read

theorem advances_objectKey {key : ObjectKey} (closed : cursor.fence.Closes)
    (read : cursor.objectKey = some (key, after)) : cursor.Advances after := by
  rw [objectKey] at read
  generalize opened : (if (cursor.peek.isWordIn ["get", "set", "async"] &&
      !(cursor.peekAt 1).isPunctIn [":", ",", "(", "\x7d"]) = true then cursor.advance
    else cursor) = start at read
  have opens : cursor.Reaches start := opened ▸ reaches_advance_if
  refine opens.trans_advances ?_
  simp only at read
  split at read
  · obtain ⟨⟨closer, behind⟩, balancedRead, same⟩ := Option.map_eq_some_iff.mp read
    cases same
    exact Extent.advances_balanced balancedRead
  split at read
  · next key =>
    cases read
    exact advances_of_not_closes (opens.closes closed) (Token.not_closes_of_name key)
  · cases read

end Cursor

end SourceCanvas
