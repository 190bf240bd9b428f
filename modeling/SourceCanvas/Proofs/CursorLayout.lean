import SourceCanvas.Proofs.ScanLaws
import SourceCanvas.Proofs.TokenLayout

/-!
# The layout seen from a cursor

`Cursor.Placed` says that the tokens a cursor has left lie one after the other from an offset on.
Each primitive of cursors and each extent has one lemma here: from a cursor placed at an offset it
reads tokens that lie behind that offset and leaves a cursor placed behind them. Readers are built
from these and never look at the tokens themselves.
-/

namespace SourceCanvas

/-! ## Closing tokens -/

/-- A token that can stand at the end of a window. -/
def Token.Closes (token : Token) : Prop := token.isCloser = true ∨ token.kind = .eof

namespace Token

variable {token : Token}

/-- Only punctuators and the end of a text close something. -/
theorem not_closes_of_kind {kind : TokenKind} (same : token.kind = kind)
    (apart : kind ≠ .punctuator ∧ kind ≠ .eof) : ¬token.Closes := by
  subst same
  rintro (closer | atEnd)
  · simp [isCloser, isPunctIn, apart.1] at closer
  · exact apart.2 atEnd

theorem not_closes_of_value (punct : token.kind = .punctuator)
    (apart : [")", "]", "\x7d"].contains token.value = false) : ¬token.Closes := by
  rintro (closer | atEnd)
  · rw [isCloser, isPunctIn, apart, Bool.and_false] at closer
    cases closer
  · rw [punct] at atEnd
    cases atEnd

theorem isPunct_iff {value : String} :
    token.isPunct value = true ↔ token.kind = .punctuator ∧ token.value = value := by
  simp [isPunct]

theorem isPunctIn_iff {values : List String} :
    token.isPunctIn values = true ↔ token.kind = .punctuator ∧ token.value ∈ values := by
  simp [isPunctIn]

theorem isWordIn_iff {values : List String} :
    token.isWordIn values = true ↔ token.kind = .identifier ∧ token.value ∈ values := by
  simp [isWordIn]

theorem kind_of_isWord {value : String} (word : token.isWord value = true) :
    token.kind = .identifier := by
  simp only [isWord, Bool.and_eq_true, beq_iff_eq] at word
  exact word.1

theorem not_closes_of_identifier (word : token.kind = .identifier) : ¬token.Closes :=
  not_closes_of_kind word (by decide)

/-- What can be the name of a property closes nothing. -/
theorem not_closes_of_name
    (name : (token.kind = .identifier || token.kind = .string || token.kind = .number) = true) :
    ¬token.Closes := by
  simp only [Bool.or_eq_true, decide_eq_true_eq] at name
  rcases name with (word | string) | number
  · exact not_closes_of_identifier word
  · exact not_closes_of_kind string (by decide)
  · exact not_closes_of_kind number (by decide)

theorem not_closes_of_isPunct {value : String} (punct : token.isPunct value = true)
    (apart : [")", "]", "\x7d"].contains value = false) : ¬token.Closes := by
  obtain ⟨kind, rfl⟩ := isPunct_iff.mp punct
  exact not_closes_of_value kind apart

theorem not_closes_of_isPunctIn {values : List String} (punct : token.isPunctIn values = true)
    (apart : ∀ value ∈ values, [")", "]", "\x7d"].contains value = false) : ¬token.Closes := by
  obtain ⟨kind, among⟩ := isPunctIn_iff.mp punct
  exact not_closes_of_value kind (apart _ among)

/-- A binary operator is a word or a punctuator that closes nothing. -/
theorem not_closes_of_precedence? {precedence : Nat}
    (operator : token.precedence? = some precedence) : ¬token.Closes := by
  rw [precedence?] at operator
  split at operator
  · next shape =>
    obtain ⟨before, after, same, -⟩ := List.lookup_eq_some_iff.mp operator
    have listed : (token.value, precedence) ∈ binaryPrecedence := by simp [same]
    have apart : ∀ entry ∈ binaryPrecedence, [")", "]", "\x7d"].contains entry.1 = false := by
      decide
    rw [Bool.or_eq_true, decide_eq_true_eq, isWordIn_iff] at shape
    rcases shape with punct | word
    · exact not_closes_of_value punct (apart _ listed)
    · exact not_closes_of_identifier word.1
  · cases operator

/-- So is an operator before its operand. -/
theorem not_closes_of_unary {following : Bool}
    (operator : (token.isPunctIn unaryOperators ||
      (token.isWordIn unaryWords && following)) = true) : ¬token.Closes := by
  rcases Bool.or_eq_true_iff.mp operator with punct | word
  · exact not_closes_of_isPunctIn punct (by decide)
  · rw [Bool.and_eq_true, isWordIn_iff] at word
    exact not_closes_of_identifier word.1.1

/-- A template or a mark of assertion behind an expression closes nothing. -/
theorem not_closes_of_suffix {near : Bool}
    (mark : ((token.kind = .template || token.isPunct "!") && near) = true) : ¬token.Closes := by
  rw [Bool.and_eq_true, Bool.or_eq_true, decide_eq_true_eq] at mark
  rcases mark.1 with template | punct
  · exact not_closes_of_kind template (by decide)
  · exact not_closes_of_isPunct punct (by decide)

end Token

/-! ## Placed cursors -/

/-- The tokens that a cursor has left before its fence lie one after the other from an offset on. -/
def Cursor.Placed (fence : Token) (lo : Nat) (cursor : Cursor) : Prop :=
  cursor.fence = fence ∧ Laid fence.span lo cursor.rest

namespace Cursor.Placed

variable {fence : Token} {lo lo' : Nat} {cursor after : Cursor}

theorem weaken (placed : Placed fence lo cursor) (le : lo' ≤ lo) : Placed fence lo' cursor :=
  ⟨placed.1, placed.2.weaken le⟩

theorem le (placed : Placed fence lo cursor) (ordered : fence.start ≤ fence.stop) :
    lo ≤ fence.stop :=
  placed.2.le ordered

theorem move {rest : List Token} (placed : Placed fence lo cursor)
    (laid : Laid fence.span lo' rest) : Placed fence lo' (cursor.move rest) :=
  ⟨placed.1, laid⟩

theorem suffix {rest : List Token} (placed : Placed fence lo cursor)
    (tail : rest <:+ cursor.rest) : Placed fence lo (cursor.move rest) :=
  placed.move (placed.2.suffix tail)

theorem advance (placed : Placed fence lo cursor) : Placed fence lo cursor.advance :=
  placed.suffix (List.tail_suffix cursor.rest)

/-- The next token ends behind the offset, also where it is the fence. -/
theorem pass (placed : Placed fence lo cursor) :
    lo ≤ cursor.peek.stop ∧ Placed fence cursor.peek.stop cursor.advance := by
  obtain ⟨rest, _⟩ := cursor
  obtain ⟨rfl, laid⟩ := placed
  cases rest with
  | nil => exact ⟨laid, rfl, Nat.le_refl _⟩
  | cons token rest =>
    obtain ⟨start, filled, -, laid⟩ := laid
    refine ⟨?_, rfl, laid⟩
    show lo ≤ token.stop
    omega

/-- A next token that closes nothing belongs to the window. -/
theorem step (placed : Placed fence lo cursor) (closed : fence.Closes)
    (inside : ¬cursor.peek.Closes) :
    lo ≤ cursor.peek.start ∧ cursor.peek.start < cursor.peek.stop ∧
      Placed fence cursor.peek.stop cursor.advance := by
  obtain ⟨rest, _⟩ := cursor
  obtain ⟨rfl, laid⟩ := placed
  cases rest with
  | nil => exact absurd closed inside
  | cons token rest =>
    obtain ⟨start, filled, -, laid⟩ := laid
    exact ⟨start, filled, rfl, laid⟩

/-- A cursor is placed where its next token starts. -/
theorem here (placed : Placed fence lo cursor) (closed : fence.Closes)
    (inside : ¬cursor.peek.Closes) :
    lo ≤ cursor.peek.start ∧ Placed fence cursor.peek.start cursor := by
  obtain ⟨rest, _⟩ := cursor
  obtain ⟨rfl, laid⟩ := placed
  cases rest with
  | nil => exact absurd closed inside
  | cons token rest =>
    obtain ⟨start, laid⟩ := laid
    exact ⟨start, rfl, Nat.le_refl _, laid⟩

theorem advance_if {p : Prop} [Decidable p] (placed : Placed fence lo cursor) :
    Placed fence lo (if p then cursor.advance else cursor) := by
  split
  · exact placed.advance
  · exact placed

theorem skipPunct {value : String} (placed : Placed fence lo cursor) :
    Placed fence lo (cursor.skipPunct value) := by
  rw [Cursor.skipPunct]
  split
  · exact placed.advance
  · exact placed

theorem expectPunct {value : String} {token : Token} (placed : Placed fence lo cursor)
    (read : cursor.expectPunct value = some (token, after)) :
    lo ≤ token.stop ∧ Placed fence token.stop after := by
  rw [Cursor.expectPunct] at read
  split at read
  · cases read
    exact placed.pass
  · cases read

/-- A punctuator that closes nothing belongs to the window. -/
theorem expectInside {value : String} {token : Token} (placed : Placed fence lo cursor)
    (closed : fence.Closes) (apart : [")", "]", "\x7d"].contains value = false)
    (read : cursor.expectPunct value = some (token, after)) :
    lo ≤ token.start ∧ token.start < token.stop ∧ Placed fence token.stop after := by
  rw [Cursor.expectPunct] at read
  split at read
  · next punct =>
    cases read
    exact placed.step closed (Token.not_closes_of_isPunct punct apart)
  · cases read

theorem expectIdentifier {token : Token} (placed : Placed fence lo cursor)
    (closed : fence.Closes) (read : cursor.expectIdentifier = some (token, after)) :
    lo ≤ token.start ∧ token.start < token.stop ∧ Placed fence token.stop after := by
  rw [Cursor.expectIdentifier] at read
  split at read
  · next word =>
    cases read
    exact placed.step closed (Token.not_closes_of_identifier word)
  · cases read

theorem expectWord {value : String} {token : Token} (placed : Placed fence lo cursor)
    (closed : fence.Closes) (read : cursor.expectWord value = some (token, after)) :
    lo ≤ token.start ∧ token.start < token.stop ∧ Placed fence token.stop after := by
  rw [Cursor.expectWord] at read
  split at read
  · next word =>
    cases read
    exact placed.step closed (Token.not_closes_of_identifier (Token.kind_of_isWord word))
  · cases read

theorem expectString {token : Token} (placed : Placed fence lo cursor)
    (closed : fence.Closes) (read : cursor.expectString = some (token, after)) :
    lo ≤ token.start ∧ token.start < token.stop ∧ Placed fence token.stop after := by
  rw [Cursor.expectString] at read
  split at read
  · next string =>
    cases read
    exact placed.step closed (Token.not_closes_of_kind string (by decide))
  · cases read

theorem memberName {token : Token} (placed : Placed fence lo cursor)
    (closed : fence.Closes) (read : cursor.memberName = some (token, after)) :
    lo ≤ token.start ∧ token.start < token.stop ∧ Placed fence token.stop after :=
  placed.skipPunct.expectIdentifier closed read

theorem endStatement (placed : Placed fence lo cursor)
    (read : cursor.endStatement = some after) : Placed fence lo after := by
  rw [Cursor.endStatement] at read
  split at read
  · cases read
    exact placed.advance
  · split at read
    · cases read
      exact placed
    · cases read

end Cursor.Placed

/-! ## Brackets -/

namespace Extent

/-- The tokens before a closer, the closer and the tokens after it make up the whole. -/
theorem eq_of_enclosed? {depth : Nat} {tokens inner after : List Token} {closer : Token}
    (found : enclosed? depth tokens = some (inner, closer, after)) :
    tokens = inner ++ closer :: after ∧ closer.isCloser = true := by
  fun_induction enclosed? depth tokens generalizing inner with
  | case1 => cases found
  | case2 depth token rest opener ih =>
    obtain ⟨⟨inner', closer', after'⟩, found', same⟩ := Option.map_eq_some_iff.mp found
    cases same
    obtain ⟨rfl, closes⟩ := ih found'
    exact ⟨rfl, closes⟩
  | case3 token rest opener closes =>
    cases found
    exact ⟨rfl, closes⟩
  | case4 depth token rest opener closes deep ih =>
    obtain ⟨⟨inner', closer', after'⟩, found', same⟩ := Option.map_eq_some_iff.mp found
    cases same
    obtain ⟨rfl, closes'⟩ := ih found'
    exact ⟨rfl, closes'⟩
  | case5 depth token rest opener closes ih =>
    obtain ⟨⟨inner', closer', after'⟩, found', same⟩ := Option.map_eq_some_iff.mp found
    cases same
    obtain ⟨rfl, closes'⟩ := ih found'
    exact ⟨rfl, closes'⟩

end Extent

namespace Cursor.Placed

variable {fence : Token} {lo : Nat} {cursor after : Cursor}

theorem balanced {closer : Token} (placed : Placed fence lo cursor)
    (read : Extent.balanced cursor = some (closer, after)) :
    lo < closer.stop ∧ Placed fence closer.stop after := by
  obtain ⟨⟨inner, found, rest⟩, enclosed, same⟩ := Option.map_eq_some_iff.mp read
  cases same
  obtain ⟨parts, -⟩ := Extent.eq_of_enclosed? enclosed
  obtain ⟨start, filled, -, laid⟩ := (parts ▸ placed.2).split
  exact ⟨by omega, placed.move laid⟩

theorem closedBody {closer : Token} (placed : Placed fence lo cursor)
    (read : cursor.closedBody = some (closer, after)) :
    lo < closer.stop ∧ Placed fence closer.stop after := by
  rw [Cursor.closedBody] at read
  split at read
  · exact placed.balanced read
  · cases read

end Cursor.Placed

/-! ## Types -/

namespace Extent

variable {fence : Span} {lo : Nat} {tokens rest : List Token}

/-- A type ends with a token that it has read, unless it reads none. -/
theorem typeRun_reads {ending : TypeEnd} {depth angle : Nat} {previous last : Option Token}
    (laid : Laid fence lo tokens)
    (run : typeRun ending depth angle previous tokens = (last, rest)) :
    (last = previous ∧ rest = tokens) ∨
      ∃ token, last = some token ∧ lo < token.stop ∧ Laid fence token.stop rest := by
  induction tokens generalizing depth angle previous lo with
  | nil =>
    cases run
    exact Or.inl ⟨rfl, rfl⟩
  | cons token others ih =>
    obtain ⟨start, filled, -, later⟩ := laid
    have goes {depth angle : Nat}
        (run : typeRun ending depth angle (some token) others = (last, rest)) :
        ∃ token, last = some token ∧ lo < token.stop ∧ Laid fence token.stop rest := by
      rcases ih later run with ⟨rfl, rfl⟩ | ⟨final, same, behind, laid⟩
      · exact ⟨token, rfl, by omega, later⟩
      · exact ⟨final, same, by omega, laid⟩
    rw [typeRun] at run
    split at run
    · cases run
      exact Or.inl ⟨rfl, rfl⟩
    split at run
    · exact Or.inr (goes run)
    split at run
    · split at run
      · cases run
        exact Or.inl ⟨rfl, rfl⟩
      · exact Or.inr (goes run)
    split at run
    · exact Or.inr (goes run)
    split at run
    · exact Or.inr (goes run)
    · exact Or.inr (goes run)

/-- Type arguments take up a token at least. -/
theorem typeArguments?_suffix {depth : Int}
    (run : typeArguments? depth tokens = some rest) : rest <:+ tokens.tail := by
  induction tokens generalizing depth with
  | nil => cases run
  | cons token others ih =>
    have goes {depth : Int} (run : typeArguments? depth others = some rest) :
        rest <:+ others := (ih run).trans (List.tail_suffix others)
    rw [typeArguments?] at run
    split at run
    · split at run
      · cases run
      split at run
      · exact goes run
      split at run
      · simp only at run
        split at run
        · split at run
          · cases run
            exact List.suffix_refl _
          · cases run
        · exact goes run
      · exact goes run
    · exact goes run
    · exact goes run
    · exact goes run
    · cases run

theorem dottedName_reads {stop stop' : Nat} (laid : Laid fence stop tokens)
    (run : dottedName stop tokens = some (stop', rest)) :
    stop ≤ stop' ∧ Laid fence stop' rest := by
  fun_induction dottedName stop tokens with
  | case1 stop dot point name rest' word ih =>
    obtain ⟨start, filled, -, start', filled', -, later⟩ := laid
    obtain ⟨le, laid⟩ := ih later run
    exact ⟨by omega, laid⟩
  | case2 => cases run
  | case3 => cases run
  | case4 =>
    cases run
    exact ⟨Nat.le_refl _, laid⟩
  | case5 =>
    cases run
    exact ⟨Nat.le_refl _, laid⟩

theorem angleRun_reads {depth : Int} {stop stop' : Nat} (laid : Laid fence stop tokens)
    (run : angleRun depth stop tokens = (stop', rest)) :
    stop ≤ stop' ∧ Laid fence stop' rest := by
  induction tokens generalizing depth stop with
  | nil =>
    cases run
    exact ⟨Nat.le_refl _, laid⟩
  | cons token others ih =>
    obtain ⟨start, filled, -, later⟩ := laid
    have goes {depth : Int} (run : angleRun depth token.stop others = (stop', rest)) :
        stop ≤ stop' ∧ Laid fence stop' rest := by
      obtain ⟨le, laid⟩ := ih later run
      exact ⟨by omega, laid⟩
    rw [angleRun] at run
    split at run
    · exact goes run
    split at run
    · simp only at run
      split at run
      · cases run
        exact ⟨by omega, later⟩
      · exact goes run
    · exact goes run

theorem arrayMarks_reads {stop stop' : Nat} (laid : Laid fence stop tokens)
    (run : arrayMarks stop tokens = (stop', rest)) : stop ≤ stop' ∧ Laid fence stop' rest := by
  fun_induction arrayMarks stop tokens with
  | case1 stop opener closer rest' marks ih =>
    obtain ⟨start, filled, -, start', filled', -, later⟩ := laid
    obtain ⟨le, laid⟩ := ih later run
    exact ⟨by omega, laid⟩
  | case2 =>
    cases run
    exact ⟨Nat.le_refl _, laid⟩
  | case3 =>
    cases run
    exact ⟨Nat.le_refl _, laid⟩

end Extent

namespace Cursor.Placed

variable {fence : Token} {lo : Nat} {cursor after : Cursor}

theorem type? {ending : Extent.TypeEnd} {span : Span} (placed : Placed fence lo cursor)
    (read : Extent.type? cursor ending = some (span, after)) :
    lo < span.stop ∧ Placed fence span.stop after := by
  rw [Extent.type?] at read
  split at read
  · next last rest run =>
    cases read
    rcases Extent.typeRun_reads placed.2 run with ⟨absent, -⟩ | ⟨token, same, behind, laid⟩
    · cases absent
    · cases same
      exact ⟨behind, placed.move laid⟩
  · cases read

theorem typeParameters (placed : Placed fence lo cursor)
    (read : Extent.typeParameters cursor = some after) : Placed fence lo after := by
  rw [Extent.typeParameters] at read
  split at read
  · obtain ⟨rest, run, rfl⟩ := Option.map_eq_some_iff.mp read
    exact placed.suffix (Extent.scan_typeParametersRun.suffix 0 run)
  · cases read
    exact placed

theorem resultType {stops : List String} {span : Option Span} (placed : Placed fence lo cursor)
    (read : cursor.resultType stops = some (span, after)) : Placed fence lo after := by
  rw [Cursor.resultType] at read
  split at read
  · obtain ⟨⟨inner, rest⟩, typed, same⟩ := Option.map_eq_some_iff.mp read
    cases same
    obtain ⟨behind, placed⟩ := placed.advance.type? typed
    exact placed.weaken (by omega)
  · cases read
    exact placed

theorem assertedType {stop : Nat} (placed : Placed fence lo cursor) (closed : fence.Closes)
    (read : Extent.assertedType cursor = some (stop, after)) :
    lo < stop ∧ Placed fence stop after := by
  rw [Extent.assertedType] at read
  split at read
  · next word =>
    cases read
    obtain ⟨start, filled, placed⟩ :=
      placed.step closed (Token.not_closes_of_identifier (Token.kind_of_isWord word))
    exact ⟨by omega, placed⟩
  · obtain ⟨⟨name, inner⟩, named, read⟩ := Option.bind_eq_some_iff.mp read
    obtain ⟨⟨dotted, rest⟩, dots, read⟩ := Option.bind_eq_some_iff.mp read
    obtain ⟨start, filled, placed⟩ := placed.expectIdentifier closed named
    obtain ⟨le, laid⟩ := Extent.dottedName_reads placed.2 dots
    have marks {angled final : Nat} {rest' rest'' : List Token} (le : dotted ≤ angled)
        (laid : Laid fence.span angled rest')
        (marked : Extent.arrayMarks angled rest' = (final, rest''))
        (same : some (final, inner.move rest'') = some (stop, after)) :
        lo < stop ∧ Placed fence stop after := by
      cases same
      obtain ⟨le', laid⟩ := Extent.arrayMarks_reads laid marked
      exact ⟨by omega, placed.move laid⟩
    cases rest with
    | nil => exact marks (Nat.le_refl _) laid rfl read
    | cons token others =>
      simp only at read
      split at read
      · obtain ⟨le', laid⟩ := Extent.angleRun_reads laid rfl
        exact marks le' laid rfl read
      · exact marks (Nat.le_refl _) laid rfl read

end Cursor.Placed

/-! ## Parts of expressions -/

namespace Cursor

variable {fence : Token} {lo : Nat} {cursor after : Cursor}

theorem not_closes_of_arrowParameters {last : Token}
    (read : cursor.arrowParameters = some (last, after)) : ¬cursor.peek.Closes := by
  rw [arrowParameters] at read
  split at read
  · next opener => exact Token.not_closes_of_isPunct opener (by decide)
  · rw [expectIdentifier] at read
    split at read
    · next word => exact Token.not_closes_of_identifier word
    · cases read

namespace Placed

theorem arrowParameters {last : Token} (placed : Placed fence lo cursor) (closed : fence.Closes)
    (read : cursor.arrowParameters = some (last, after)) :
    lo < last.stop ∧ Placed fence last.stop after := by
  rw [Cursor.arrowParameters] at read
  split at read
  · exact placed.balanced read
  · obtain ⟨start, filled, placed⟩ := placed.expectIdentifier closed read
    exact ⟨by omega, placed⟩

theorem arrowType (placed : Placed fence lo cursor) (read : cursor.arrowType = some after) :
    Placed fence lo after := by
  rw [Cursor.arrowType] at read
  split at read
  · obtain ⟨⟨span, rest⟩, typed, rfl⟩ := Option.map_eq_some_iff.mp read
    obtain ⟨behind, placed⟩ := placed.advance.type? typed
    exact placed.weaken (by omega)
  · cases read
    exact placed

theorem parameterName {last : Token} (placed : Placed fence lo cursor) (closed : fence.Closes)
    (read : cursor.parameterName = some (last, after)) : Placed fence lo after := by
  rw [Cursor.parameterName] at read
  split at read
  · obtain ⟨behind, placed⟩ := placed.balanced read
    exact placed.weaken (by omega)
  · obtain ⟨start, filled, placed⟩ := placed.expectIdentifier closed read
    exact placed.weaken (by omega)

theorem parameterType {span : Option Span} (placed : Placed fence lo cursor)
    (read : cursor.parameterType = some (span, after)) : Placed fence lo after := by
  rw [Cursor.parameterType] at read
  split at read
  · obtain ⟨⟨inner, rest⟩, typed, same⟩ := Option.map_eq_some_iff.mp read
    cases same
    obtain ⟨behind, placed⟩ := placed.advance.type? typed
    exact placed.weaken (by omega)
  · cases read
    exact placed

theorem objectKey {key : ObjectKey} (placed : Placed fence lo cursor)
    (read : cursor.objectKey = some (key, after)) : Placed fence lo after := by
  rw [Cursor.objectKey] at read
  simp only at read
  have skipped := placed.advance_if (p := (cursor.peek.isWordIn ["get", "set", "async"] &&
    !(cursor.peekAt 1).isPunctIn [":", ",", "(", "\x7d"]) = true)
  generalize (if (cursor.peek.isWordIn ["get", "set", "async"] &&
    !(cursor.peekAt 1).isPunctIn [":", ",", "(", "\x7d"]) = true then cursor.advance
    else cursor) = inner at read skipped
  split at read
  · obtain ⟨⟨closer, rest⟩, enclosed, same⟩ := Option.map_eq_some_iff.mp read
    cases same
    obtain ⟨behind, placed⟩ := skipped.balanced enclosed
    exact placed.weaken (by omega)
  · split at read
    · cases read
      exact skipped.advance
    · cases read

end Placed

end Cursor

end SourceCanvas
