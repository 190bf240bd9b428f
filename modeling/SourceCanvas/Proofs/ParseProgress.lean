import SourceCanvas.Proofs.ExprProgress
import SourceCanvas.Proofs.OutlineLayout

/-!
# How the reading of a text gets on

A text that has tokens is read to its end (`parse_progress`). Each statement of the text and of each
body is read or skipped, and leaves a token behind (`StatementReader.Run`). The loops inside of
statements get on as well: a round goes on with the next one behind a token that it has passed, so
that the depth they are given is never used up (`Reading.Progress`).

One loop waits for a token that it does not count brackets for: specifiers end with the next closing
brace. It is there because the brackets of the tokens match.
-/

namespace SourceCanvas

open Cursor Extent

/-! ## Brackets -/

namespace Lexer

variable {opened tokens before rest : List Token} {opener : Token}

/-- A brace that is open is closed by a later token. -/
theorem exists_closing (matched : openBrackets opened tokens = .ok [])
    (brace : ∃ opener ∈ opened, closerOf opener.value = "\x7d") :
    ∃ token ∈ tokens, token.isPunct "\x7d" = true := by
  induction tokens generalizing opened with
  | nil =>
    cases matched
    obtain ⟨opener, member, -⟩ := brace
    cases member
  | cons token tokens ih =>
    have later {opened : List Token} (matched : openBrackets opened tokens = .ok [])
        (brace : ∃ opener ∈ opened, closerOf opener.value = "\x7d") :
        ∃ found ∈ token :: tokens, found.isPunct "\x7d" = true := by
      obtain ⟨found, member, closes⟩ := ih matched brace
      exact ⟨found, List.mem_cons_of_mem _ member, closes⟩
    obtain ⟨opener, member, closes⟩ := brace
    unfold openBrackets at matched
    split at matched
    · exact later matched ⟨opener, List.mem_cons_of_mem _ member, closes⟩
    split at matched
    · next closer =>
      split at matched
      · cases matched
      split at matched
      · next innermost outer same =>
        rcases List.mem_cons.mp member with rfl | member
        · -- the token closes this very brace
          have punct := (Token.isPunctIn_iff.mp closer).1
          exact ⟨token, List.mem_cons_self .., Token.isPunct_iff.mpr ⟨punct, same.trans closes⟩⟩
        · exact later matched ⟨opener, member, closes⟩
      · cases matched
    · exact later matched ⟨opener, member, closes⟩

/-- What stands before some tokens is matched first. -/
theorem openBrackets_append (opened before rest : List Token) :
    openBrackets opened (before ++ rest) =
      (openBrackets opened before).bind fun outer => openBrackets outer rest := by
  induction before generalizing opened with
  | nil => rfl
  | cons token before ih =>
    rw [List.cons_append, openBrackets.eq_def, openBrackets.eq_def opened]
    simp only [ih]
    split
    · rfl
    split
    · cases opened with
      | nil => rfl
      | cons opener outer =>
        simp only
        split <;> rfl
    · rfl

theorem exists_openBrackets {left : List Token}
    (matched : openBrackets opened (before ++ rest) = .ok left) :
    ∃ outer, openBrackets opened before = .ok outer ∧ openBrackets outer rest = .ok left := by
  rw [openBrackets_append] at matched
  cases front : openBrackets opened before with
  | error closer =>
    rw [front] at matched
    cases matched
  | ok outer =>
    rw [front] at matched
    exact ⟨outer, rfl, matched⟩

/-- Behind an opening brace there is a closing one. -/
theorem exists_closing_of_suffix (matched : openBrackets [] tokens = .ok [])
    (suffix : opener :: rest <:+ tokens) (brace : opener.isPunct "\x7b" = true) :
    ∃ token ∈ rest, token.isPunct "\x7d" = true := by
  obtain ⟨before, rfl⟩ := suffix
  obtain ⟨opened, -, matched⟩ := exists_openBrackets matched
  obtain ⟨punct, value⟩ := Token.isPunct_iff.mp brace
  have opens : opener.isOpener = true := by simp [Token.isOpener, Token.isPunctIn, punct, value]
  unfold openBrackets at matched
  rw [if_pos opens] at matched
  exact exists_closing matched ⟨opener, List.mem_cons_self .., by rw [value]; decide⟩

end Lexer

/-! ## Windows -/

/-- The window of a cursor lies in a list of tokens, with a token at its end that closes it. -/
structure Cursor.Within (tokens : List Token) (cursor : Cursor) : Prop where
  part : cursor.rest ++ [cursor.fence] <:+: tokens
  closed : cursor.fence.Closes

namespace Cursor.Within

variable {tokens inner behind : List Token} {cursor after : Cursor} {closer : Token}

/-- Whatever a cursor looks at is one of the tokens. -/
theorem peekAt_mem (within : cursor.Within tokens) (count : Nat) :
    cursor.peekAt count ∈ tokens := by
  refine within.part.subset ?_
  rw [peekAt, List.getD_eq_getElem?_getD]
  cases found : cursor.rest[count]? with
  | none => simp
  | some token => exact List.mem_append_left _ (List.mem_of_getElem? found)

theorem reaches (within : cursor.Within tokens) (reaches : cursor.Reaches after) :
    after.Within tokens := by
  refine ⟨?_, reaches.closes within.closed⟩
  obtain ⟨passed, same⟩ := reaches.suffix
  rw [reaches.fence]
  refine List.IsInfix.trans ?_ within.part
  exact ⟨passed, [], by rw [← same]; simp⟩

/-- What a bracket encloses is a window of its own. -/
theorem enclosed {depth : Nat} (within : cursor.Within tokens)
    (found : enclosed? depth cursor.rest = some (inner, closer, behind)) :
    Cursor.Within tokens ⟨inner, closer⟩ := by
  obtain ⟨parts, closes⟩ := eq_of_enclosed? found
  refine ⟨List.IsInfix.trans ?_ within.part, .inl closes⟩
  exact ⟨[], behind ++ [cursor.fence], by rw [parts]; simp⟩

end Cursor.Within

/-- The cursor at the start of a text with the given tokens. -/
def Cursor.start (tokens : List Token) : Cursor := ⟨tokens.dropLast, tokens.getLastD default⟩

/-- What stands behind a bracket is reached. -/
theorem Cursor.Reaches.enclosed {depth : Nat} {cursor inside : Cursor} {inner behind : List Token}
    {closer : Token} (reaches : cursor.Reaches inside)
    (found : enclosed? depth inside.rest = some (inner, closer, behind)) :
    cursor.Reaches (cursor.move behind) := by
  obtain ⟨parts, -⟩ := eq_of_enclosed? found
  refine reaches_move (List.IsSuffix.trans ?_ reaches.suffix)
  exact ⟨inner ++ [closer], by rw [parts]; simp⟩

/-! ## Skipping -/

/-- Skipping a member passes its first token. -/
theorem advances_skipMember {cursor : Cursor} (inside : ¬cursor.atEnd = true) :
    cursor.Advances (cursor.move (skipMember 0 true cursor.rest)) := by
  refine (advances_of_inside inside).trans_reaches (reaches_move ?_)
  cases left : cursor.rest with
  | nil => exact absurd (by simp [atEnd, left]) inside
  | cons token rest =>
    have further (depth : Nat) : skipMember depth false rest <:+ cursor.advance.rest := by
      rw [advance, left]
      exact scan_skipMember.suffix (depth, false) rfl
    rw [skipMember, if_neg (by simp)]
    split
    · exact further _
    split
    · exact further _
    · exact further _

/-! ## Statements -/

namespace StatementReader

variable {reader : StatementReader} {tokens : List Token} {cursor after : Cursor}

/-- A reader that stays in the window and does not go back. -/
def Onward (reader : StatementReader) : Prop :=
  ∀ {cursor after : Cursor} {constructs : List Construct}, cursor.fence.Closes →
    reader cursor = some (constructs, after) → cursor.Reaches after

theorem atEnd_iff : cursor.atEnd = true ↔ cursor.size = 0 := by
  rw [atEnd, size, List.isEmpty_iff, List.length_eq_zero_iff]

/-- Whether a statement is read or skipped, a token of it is passed. -/
theorem advances_progress (inside : ¬cursor.atEnd = true) (reaches : cursor.Reaches after) :
    cursor.Advances (progress cursor after) := by
  rw [progress]
  split
  · next stuck =>
    -- skipping stops at once before a bracket that closes nothing it has seen
    refine reaches.trans_advances (advances_of_inside ?_)
    rw [atEnd_iff] at inside ⊢
    rwa [stuck]
  · next moved =>
    exact ⟨reaches, Nat.lt_of_le_of_ne reaches.size_le moved⟩

theorem Onward.advances_orSkip (onward : reader.Onward) (closed : cursor.fence.Closes)
    (inside : ¬cursor.atEnd = true) : cursor.Advances (reader.orSkip cursor).2 := by
  rw [orSkip]
  split
  · next read => exact advances_progress inside (onward closed read)
  · exact advances_progress inside (reaches_move (scan_skipStatement.suffix (0, true) rfl))

/-- The statements of a window are read or skipped one after the other, each behind a token that
the one before it has passed, until the window is used up. -/
inductive Run (reader : StatementReader) (tokens : List Token) :
    Cursor → List Construct → Cursor → Prop where
  | ended {cursor : Cursor} (within : cursor.Within tokens) (ended : cursor.atEnd = true) :
      Run reader tokens cursor [] cursor
  | further {cursor last : Cursor} {constructs : List Construct} (within : cursor.Within tokens)
      (inside : ¬cursor.atEnd = true) (advances : cursor.Advances (reader.orSkip cursor).2)
      (later : Run reader tokens (reader.orSkip cursor).2 constructs last) :
      Run reader tokens cursor ((reader.orSkip cursor).1 ++ constructs) last

/-- Fuel for the tokens that are left is enough to read all statements of a window. -/
theorem Onward.run (onward : reader.Onward) {fuel : Nat} (enough : cursor.size ≤ fuel)
    (within : cursor.Within tokens) :
    reader.Run tokens cursor (reader.all fuel cursor) ⟨[], cursor.fence⟩ := by
  induction fuel generalizing cursor with
  | zero =>
    have used : cursor.rest = [] := List.length_eq_zero_iff.mp (Nat.le_zero.mp enough)
    obtain ⟨rest, fence⟩ := cursor
    cases used
    exact .ended within rfl
  | succ fuel ih =>
    rw [all]
    split
    · next ended =>
      obtain ⟨rest, fence⟩ := cursor
      cases (List.isEmpty_iff.mp ended : rest = [])
      exact .ended within rfl
    · next inside =>
      have advances := onward.advances_orSkip within.closed inside
      have later := ih (by have := advances.shorter; omega) (within.reaches advances.toReaches)
      rw [advances.fence] at later
      exact .further within inside advances later

end StatementReader

namespace Reading

variable {reading : Reading} {cursor after : Cursor} {start : Nat}

/-! ## Imports and exports -/

/-- Specifiers end if a closing brace comes. -/
theorem specifiers_isSome {tokens : List Token} (words : List String)
    (closes : ∃ token ∈ tokens, token.isPunct "\x7d" = true) :
    (specifiers words tokens).isSome = true := by
  induction tokens generalizing words with
  | nil =>
    obtain ⟨token, member, -⟩ := closes
    cases member
  | cons token others ih =>
    rw [specifiers]
    split
    · rfl
    · next other =>
      have behind : ∃ token ∈ others, token.isPunct "\x7d" = true := by
        obtain ⟨found, member, brace⟩ := closes
        rcases List.mem_cons.mp member with rfl | member
        · exact absurd brace other
        · exact ⟨found, member, brace⟩
      split
      · rw [Option.isSome_map]
        exact ih [] behind
      · exact ih _ behind

theorem reaches_specifierList {names : List String} {closer : Token}
    (read : specifierList cursor = some (names, closer, after)) : cursor.Reaches after := by
  obtain ⟨⟨opener, inner⟩, openerRead, read⟩ := Option.bind_eq_some_iff.mp read
  obtain ⟨⟨names', closer', rest⟩, namesRead, read⟩ := Option.bind_eq_some_iff.mp read
  cases read
  have suffix : rest <:+ inner.rest := scan_specifiers.suffix [] (by rw [namesRead]; rfl)
  exact (reaches_expectPunct openerRead).trans (reaches_move suffix)

theorem reaches_importClause {attributes attributes' : ImportAttributes}
    (closed : cursor.fence.Closes)
    (read : importClause attributes cursor = some (attributes', after)) :
    cursor.Reaches after := by
  rw [importClause] at read
  have opens : cursor.Reaches (if cursor.peek.kind = .identifier then
      ({ attributes with defaultName := some cursor.peek.value }, cursor.advance.skipPunct ",")
      else (attributes, cursor)).2 := by
    split
    · exact (reaches_advance cursor).trans reaches_skipPunct
    · exact .refl cursor
  generalize (if cursor.peek.kind = .identifier then
    ({ attributes with defaultName := some cursor.peek.value }, cursor.advance.skipPunct ",")
    else (attributes, cursor)) = taken at read opens
  obtain ⟨attributes, middle⟩ := taken
  simp only at read opens
  refine opens.trans ?_
  replace closed := opens.closes closed
  split at read
  · obtain ⟨⟨word, inner⟩, wordRead, read⟩ := Option.bind_eq_some_iff.mp read
    obtain ⟨⟨name, inner'⟩, nameRead, read⟩ := Option.bind_eq_some_iff.mp read
    cases read
    have passed := (reaches_advance middle).trans (reaches_expectWord wordRead)
    exact passed.trans (advances_expectIdentifier (passed.closes closed) nameRead).toReaches
  split at read
  · obtain ⟨⟨names, closer, inner⟩, namesRead, read⟩ := Option.bind_eq_some_iff.mp read
    cases read
    exact reaches_specifierList namesRead
  · cases read
    exact .refl _

theorem reaches_fromSource {source : Token} (read : fromSource cursor = some (source, after)) :
    cursor.Reaches after := by
  obtain ⟨⟨word, inner⟩, wordRead, read⟩ := Option.bind_eq_some_iff.mp read
  exact (reaches_expectWord wordRead).trans (reaches_expectString read)

theorem reaches_importFrom {typeOnly : Bool} {attributes : ImportAttributes} {source : Token}
    (closed : cursor.fence.Closes)
    (read : importFrom typeOnly cursor = some (attributes, source, after)) :
    cursor.Reaches after := by
  rw [importFrom] at read
  split at read
  · cases read
    exact reaches_advance cursor
  · obtain ⟨⟨attributes', inner⟩, clauseRead, read⟩ := Option.bind_eq_some_iff.mp read
    obtain ⟨⟨source', inner'⟩, sourceRead, read⟩ := Option.bind_eq_some_iff.mp read
    cases read
    exact (reaches_importClause closed clauseRead).trans (reaches_fromSource sourceRead)

theorem onward_importStatement : StatementReader.Onward importStatement := by
  intro cursor after constructs closed read
  rw [importStatement] at read
  simp only at read
  obtain ⟨⟨attributes, source, inner⟩, sourceRead, read⟩ := Option.bind_eq_some_iff.mp read
  obtain ⟨inner', endRead, read⟩ := Option.bind_eq_some_iff.mp read
  cases read
  have passed : cursor.Reaches
      (if atTypeOnly cursor.advance = true then cursor.advance.advance else cursor.advance) :=
    (reaches_advance cursor).trans reaches_advance_if
  exact passed.trans ((reaches_importFrom (passed.closes closed) sourceRead).trans
    (reaches_endStatement endRead))

theorem reaches_wholeName {name : Option String} (closed : cursor.fence.Closes)
    (read : wholeName cursor = some (name, after)) : cursor.Reaches after := by
  rw [wholeName] at read
  split at read
  · obtain ⟨⟨word, inner⟩, nameRead, same⟩ := Option.map_eq_some_iff.mp read
    cases same
    exact ((reaches_advance cursor).trans_advances
      (advances_expectIdentifier closed nameRead)).toReaches
  · cases read
    exact .refl cursor

theorem onward_exportStar : (exportStar start).Onward := by
  intro cursor after constructs closed read
  obtain ⟨⟨name, inner⟩, nameRead, read⟩ := Option.bind_eq_some_iff.mp read
  obtain ⟨⟨source, inner⟩, sourceRead, read⟩ := Option.bind_eq_some_iff.mp read
  obtain ⟨inner, endRead, read⟩ := Option.bind_eq_some_iff.mp read
  cases read
  exact (reaches_wholeName closed nameRead).trans
    ((reaches_fromSource sourceRead).trans (reaches_endStatement endRead))

theorem reaches_exportSource {closer : Token} {name : Option String} {stop : Nat}
    (read : exportSource closer cursor = some (name, stop, after)) : cursor.Reaches after := by
  rw [exportSource] at read
  split at read
  · obtain ⟨⟨source, inner⟩, sourceRead, same⟩ := Option.map_eq_some_iff.mp read
    cases same
    exact reaches_fromSource sourceRead
  · cases read
    exact .refl cursor

theorem onward_exportNamed : (exportNamed start).Onward := by
  intro cursor after constructs closed read
  obtain ⟨⟨names, closer, inner⟩, namesRead, read⟩ := Option.bind_eq_some_iff.mp read
  obtain ⟨⟨source, stop, inner⟩, sourceRead, read⟩ := Option.bind_eq_some_iff.mp read
  obtain ⟨inner, endRead, read⟩ := Option.bind_eq_some_iff.mp read
  cases read
  exact (reaches_specifierList namesRead).trans
    ((reaches_exportSource sourceRead).trans (reaches_endStatement endRead))

theorem onward_exportDefault : (reading.exportDefault start).Onward := by
  intro cursor after constructs closed read
  obtain ⟨⟨expr, inner⟩, exprRead, read⟩ := Option.bind_eq_some_iff.mp read
  obtain ⟨inner, endRead, read⟩ := Option.bind_eq_some_iff.mp read
  cases read
  exact (advances_expression closed exprRead).toReaches.trans (reaches_endStatement endRead)

/-! ## Interfaces -/

/-- Another base type is asked for behind a comma. -/
theorem grounded_baseTypeStep (reading : Reading) :
    Grounded ahead (fun _ cursor => SameFound cursor.Reaches) (baseTypeStep reading) := by
  intro next next' task cursor closed same
  unfold baseTypeStep
  refine .known fun ⟨span, rest⟩ typeRead => ?_
  have passed := reaches_type? typeRead
  dsimp only
  split
  · next comma =>
    have ahead := passed.trans_advances
      (advances_of_isPunct (passed.closes closed) comma (by decide))
    refine (same () _ ahead).bind fun others rest found => ?_
    exact .some (ahead.toReaches.trans found)
  · exact .some passed

theorem reaches_baseTypes {depth : Nat} {names : List String} (closed : cursor.fence.Closes)
    (deep : cursor.size < depth)
    (read : baseTypes reading depth cursor = some (names, after)) : cursor.Reaches after :=
  ((grounded_baseTypeStep reading).loop.deep _ (fun _ _ => none) depth depth () cursor closed deep
    deep).2 names after read

theorem reaches_extended {names : List String} (closed : cursor.fence.Closes)
    (read : reading.extended cursor = some (names, after)) : cursor.Reaches after := by
  rw [extended] at read
  split at read
  · have deep : cursor.advance.size < cursor.size + 1 :=
      Nat.lt_succ_of_le (reaches_advance cursor).size_le
    exact (reaches_advance cursor).trans (reaches_baseTypes closed deep read)
  · cases read
    exact .refl cursor

/-- A member with a name and a type is passed. -/
theorem advances_typedMember {member : Member} (closed : cursor.fence.Closes)
    (read : typedMember reading cursor = some (member, after)) : cursor.Advances after := by
  rw [typedMember] at read
  simp only at read
  generalize opened : (if (cursor.peek.isWord "readonly" &&
      ((cursor.peekAt 1).kind = .identifier || (cursor.peekAt 1).kind = .string)) = true then
    cursor.advance else cursor) = named at read
  have opens : cursor.Reaches named := opened ▸ reaches_advance_if
  refine opens.trans_advances ?_
  split at read
  · next name =>
    have passed := advances_of_not_closes (opens.closes closed) (Token.not_closes_of_name name)
    split at read
    · obtain ⟨⟨span, inner⟩, typeRead, read⟩ := Option.bind_eq_some_iff.mp read
      cases read
      exact passed.trans_reaches (reaches_skipPunct.trans
        ((reaches_advance _).trans (reaches_type? typeRead)))
    · cases read
  · cases read

/-- Another member is asked for behind the one that is read or skipped. -/
theorem grounded_memberStep (reading : Reading) :
    Grounded ahead (fun _ _ => Eq) (memberStep reading) := by
  intro next next' task cursor closed same
  unfold memberStep
  split
  · rfl
  next inside =>
  split
  · exact same () _ (advances_of_inside inside)
  split
  · next member after read =>
    exact congrArg _ (same () _ (advances_typedMember closed read))
  · exact same () _ (advances_skipMember inside)

theorem onward_interfaceStatement : (reading.interfaceStatement start).Onward := by
  intro cursor after constructs closed read
  obtain ⟨⟨name, named⟩, nameRead, read⟩ := Option.bind_eq_some_iff.mp read
  obtain ⟨typed, typesRead, read⟩ := Option.bind_eq_some_iff.mp read
  obtain ⟨⟨bases, based⟩, basesRead, read⟩ := Option.bind_eq_some_iff.mp read
  obtain ⟨⟨opener, inside⟩, openerRead, read⟩ := Option.bind_eq_some_iff.mp read
  obtain ⟨⟨tokens, closer, rest⟩, bodyRead, read⟩ := Option.bind_eq_some_iff.mp read
  cases read
  have passed := (reaches_advance cursor).trans_advances (advances_expectIdentifier closed nameRead)
  replace passed := passed.trans_reaches (reaches_typeParameters typesRead)
  replace passed := passed.trans_reaches (reaches_extended (passed.closes closed) basesRead)
  exact passed.toReaches.trans ((reaches_expectPunct openerRead).enclosed bodyRead)

/-! ## Variables -/

theorem reaches_declaredType {name : Token} {type : Option Span} {stop : Nat}
    (read : declaredType name cursor = some (type, stop, after)) : cursor.Reaches after := by
  rw [declaredType] at read
  simp only at read
  have marked : cursor.Reaches (cursor.skipPunct "!") := reaches_skipPunct
  refine marked.trans ?_
  split at read
  · obtain ⟨⟨span, inner⟩, typeRead, same⟩ := Option.map_eq_some_iff.mp read
    cases same
    exact (reaches_advance _).trans (reaches_type? typeRead)
  · cases read
    exact .refl _

theorem reaches_initializer {initializer : Option Expr} (closed : cursor.fence.Closes)
    (read : Reading.initializer cursor = some (initializer, after)) : cursor.Reaches after := by
  rw [Reading.initializer] at read
  split at read
  · obtain ⟨⟨expr, inner⟩, exprRead, same⟩ := Option.map_eq_some_iff.mp read
    cases same
    exact ((reaches_advance cursor).trans_advances (advances_expression closed exprRead)).toReaches
  · cases read
    exact .refl cursor

/-- Another declaration is asked for behind a comma. -/
theorem grounded_declarationStep (reading : Reading) (keyword : String) :
    Grounded ahead (fun _ cursor => SameFound cursor.Reaches)
      (declarationStep reading keyword) := by
  intro next next' task cursor closed same
  unfold declarationStep
  refine .known fun ⟨name, rest⟩ nameRead => ?_
  have passed := advances_expectIdentifier closed nameRead
  refine .known fun ⟨type, stop, rest⟩ typeRead => ?_
  replace passed := passed.trans_reaches (reaches_declaredType typeRead)
  refine .known fun ⟨initializer, rest⟩ initializerRead => ?_
  replace passed := passed.trans_reaches
    (reaches_initializer (passed.closes closed) initializerRead)
  dsimp only
  split
  · replace passed := passed.trans_reaches (reaches_advance rest)
    refine (same none _ passed).bind fun others rest found => ?_
    exact .some (passed.toReaches.trans found)
  · exact .some passed.toReaches

theorem reaches_declarations {keyword : String} {depth : Nat} {first : Option Nat}
    {constructs : List Construct} (closed : cursor.fence.Closes) (deep : cursor.size < depth)
    (read : declarations reading keyword depth first cursor = some (constructs, after)) :
    cursor.Reaches after :=
  ((grounded_declarationStep reading keyword).loop.deep _ (fun _ _ => none) depth depth first cursor
    closed deep deep).2 constructs after read

theorem onward_variableStatement : (reading.variableStatement start).Onward := by
  intro cursor after constructs closed read
  rw [variableStatement] at read
  simp only at read
  obtain ⟨⟨found, inner⟩, declarationsRead, read⟩ := Option.bind_eq_some_iff.mp read
  obtain ⟨inner', endRead, read⟩ := Option.bind_eq_some_iff.mp read
  cases read
  have passed := reaches_advance cursor
  have listed := reaches_declarations (passed.closes closed) (Nat.lt_succ_self _) declarationsRead
  exact passed.trans (listed.trans (reaches_endStatement endRead))

/-! ## Functions -/

theorem onward_returnStatement : reading.returnStatement.Onward := by
  intro cursor after constructs closed read
  rw [returnStatement] at read
  simp only at read
  split at read
  · obtain ⟨inner, endRead, read⟩ := Option.bind_eq_some_iff.mp read
    cases read
    exact reaches_endStatement endRead
  · obtain ⟨⟨expr, inner⟩, exprRead, read⟩ := Option.bind_eq_some_iff.mp read
    obtain ⟨inner', endRead, read⟩ := Option.bind_eq_some_iff.mp read
    cases read
    exact (advances_expression closed exprRead).toReaches.trans (reaches_endStatement endRead)

theorem onward_bodyStatement : reading.bodyStatement.Onward := by
  intro cursor after constructs closed read
  rw [bodyStatement] at read
  simp only at read
  split at read
  · cases read
    exact reaches_advance cursor
  split at read
  · exact (reaches_advance cursor).trans (onward_returnStatement closed read)
  split at read
  · exact onward_variableStatement closed read
  split at read
  · cases read
  · obtain ⟨⟨expr, inner⟩, exprRead, read⟩ := Option.bind_eq_some_iff.mp read
    obtain ⟨inner', endRead, read⟩ := Option.bind_eq_some_iff.mp read
    cases read
    exact (advances_expression closed exprRead).toReaches.trans (reaches_endStatement endRead)

/-- What it takes to read a function: after its head an opening brace, and from there on the body up
to the brace that closes it. A request that the function makes stands for the whole; otherwise the
text between the braces is kept, next to what its statements are made of. -/
theorem functionStatement_eq_some {constructs : List Construct} (closed : cursor.fence.Closes)
    (read : reading.functionStatement start cursor = some (constructs, after)) :
    ∃ (head inside : Cursor) (opener closer : Token) (inner behind : List Token),
      cursor.Advances head ∧ head.expectPunct "\x7b" = some (opener, inside) ∧
      enclosed? 1 inside.rest = some (inner, closer, behind) ∧ after = head.move behind ∧
      ((∃ request, constructs = [.mk (.api request) ⟨start, closer.stop⟩ []]) ∨
        ∃ function : FunctionAttributes,
          function.body = (Text.dedent? (reading.text ⟨opener.stop, closer.start⟩).toList).map
            String.ofList ∧
          constructs = [.mk (.functionDecl function) ⟨start, closer.stop⟩
            (StatementReader.all reading.bodyStatement inner.length ⟨inner, closer⟩)]) := by
  rw [functionStatement] at read
  simp only at read
  obtain ⟨⟨name, named⟩, nameRead, read⟩ := Option.bind_eq_some_iff.mp read
  obtain ⟨typed, typesRead, read⟩ := Option.bind_eq_some_iff.mp read
  obtain ⟨⟨parameters, listed⟩, parametersRead, read⟩ := Option.bind_eq_some_iff.mp read
  obtain ⟨⟨type, resulted⟩, typeRead, read⟩ := Option.bind_eq_some_iff.mp read
  obtain ⟨⟨opener, inside⟩, openerRead, read⟩ := Option.bind_eq_some_iff.mp read
  obtain ⟨⟨tokens, closer, rest⟩, bodyRead, read⟩ := Option.bind_eq_some_iff.mp read
  have opens := reaches_advance_if.trans (reaches_advance
    (if cursor.peek.isWord "async" = true then cursor.advance else cursor))
  have passed := opens.trans_advances (advances_expectIdentifier (opens.closes closed) nameRead)
  replace passed := passed.trans_reaches (reaches_typeParameters typesRead)
  replace passed := passed.trans (advances_parameters (passed.closes closed) parametersRead)
  replace passed := passed.trans_reaches (reaches_resultType typeRead)
  refine ⟨resulted, inside, opener, closer, tokens, rest, passed, openerRead, bodyRead, ?_⟩
  simp only at read
  split at read
  · next request made =>
    cases read
    exact ⟨rfl, .inl ⟨request, rfl⟩⟩
  · cases read
    refine ⟨rfl, .inr ⟨_, ?_, rfl⟩⟩
    simp only

theorem onward_functionStatement : (reading.functionStatement start).Onward := by
  intro cursor after constructs closed read
  obtain ⟨head, inside, opener, closer, inner, behind, passed, openerRead, bodyRead, rfl, -⟩ :=
    functionStatement_eq_some closed read
  exact passed.toReaches.trans ((reaches_expectPunct openerRead).enclosed bodyRead)

/-! ## Texts -/

theorem onward_exportStatement : reading.exportStatement.Onward := by
  intro cursor after constructs closed read
  rw [exportStatement] at read
  simp only at read
  refine (reaches_advance cursor).trans ?_
  split at read
  · refine (reaches_advance cursor.advance).trans ?_
    split at read
    · exact onward_functionStatement closed read
    split at read
    · cases read
    · exact onward_exportDefault closed read
  split at read
  · exact (reaches_advance cursor.advance).trans (onward_exportStar closed read)
  split at read
  · exact onward_exportNamed closed read
  split at read
  · exact onward_functionStatement closed read
  split at read
  · exact onward_interfaceStatement closed read
  split at read
  · exact onward_variableStatement closed read
  · cases read

theorem onward_topStatement : reading.topStatement.Onward := by
  intro cursor after constructs closed read
  rw [topStatement] at read
  split at read
  · cases read
    exact reaches_advance cursor
  split at read
  · exact onward_importStatement closed read
  split at read
  · exact onward_exportStatement closed read
  split at read
  · exact onward_functionStatement closed read
  split at read
  · exact onward_interfaceStatement closed read
  split at read
  · exact onward_variableStatement closed read
  · cases read

/-! ## Whole texts -/

/-- How the reading of a text with the given tokens gets on. -/
structure Progress (reading : Reading) (tokens : List Token) : Prop where
  /-- the statements of the text are read or skipped up to the token at its end -/
  text : ∃ last, tokens.getLast? = some last ∧ last.kind = .eof ∧
    reading.topStatement.Run tokens (Cursor.start tokens) (reading.outline tokens) ⟨[], last⟩
  /-- the statements of a body are read or skipped up to the brace that closes it -/
  body : ∀ cursor, cursor.Within tokens →
    reading.bodyStatement.Run tokens cursor (reading.bodyStatement.all cursor.size cursor)
      ⟨[], cursor.fence⟩
  /-- a cursor stays in its window wherever it is moved -/
  moves : ∀ cursor after : Cursor, cursor.Within tokens → cursor.Reaches after →
    after.Within tokens
  /-- what a bracket encloses is a window of the same tokens -/
  windows : ∀ (cursor : Cursor) depth inner closer behind, cursor.Within tokens →
    enclosed? depth cursor.rest = some (inner, closer, behind) →
    Cursor.Within tokens ⟨inner, closer⟩
  /-- no other tokens are seen -/
  seen : ∀ (cursor : Cursor) count, cursor.Within tokens → cursor.peekAt count ∈ tokens
  /-- specifiers come to the brace that closes them -/
  specifiers : ∀ cursor, (Cursor.start tokens).Reaches cursor → cursor.peek.isPunct "\x7b" = true →
    (Reading.specifiers [] cursor.advance.rest).isSome = true
  /-- scans stop in each round or pass a token -/
  scans : Scanning
  /-- the readers of expressions go on behind a token, or with a task of lower rank -/
  expressions : Bottomless Expr.Task.Asks Expr.Task.Same Expr.step Cursor.fuel
  /-- so the loops over arguments, elements, properties, parameters, operators and accesses pass a
  token before another round -/
  rounds : ∀ (task task' : Expr.Task) cursor cursor', task.Asks cursor task' cursor' →
    task'.rank = task.rank → cursor.Advances cursor'
  /-- the other loops go on behind a token -/
  declarations : ∀ keyword, Bottomless ahead (fun _ cursor => SameFound cursor.Reaches)
    (declarationStep reading keyword) fun cursor => cursor.size + 1
  baseTypes : Bottomless ahead (fun _ cursor => SameFound cursor.Reaches) (baseTypeStep reading)
    fun cursor => cursor.size + 1
  members : Bottomless ahead (fun _ _ => Eq) (memberStep reading) fun cursor => cursor.size + 1

/-- The reading of a text gets on if a token at the end closes it and the brackets before match. -/
theorem Progress.of_matched (reading : Reading) {before : List Token} {last : Token}
    (ended : last.kind = .eof) (matched : Lexer.openBrackets [] before = .ok []) :
    reading.Progress (before ++ [last]) := by
  have start : Cursor.start (before ++ [last]) = ⟨before, last⟩ := by
    rw [Cursor.start, List.dropLast_concat, List.getLastD_concat]
  have within : Cursor.Within (before ++ [last]) ⟨before, last⟩ :=
    ⟨List.infix_rfl, .inr ended⟩
  refine
    { text := ⟨last, List.getLast?_concat, ended, ?_⟩
      body := fun cursor within => onward_bodyStatement.run (Nat.le_refl _) within
      moves := fun _ _ within reaches => within.reaches reaches
      windows := fun _ _ _ _ _ within found => within.enclosed found
      seen := fun _ count within => within.peekAt_mem count
      specifiers := ?_
      scans := scanning
      expressions := Expr.bottomless_step
      rounds := fun _ _ _ _ asks same => asks.advances same
      declarations := fun keyword => (grounded_declarationStep reading keyword).loop
      baseTypes := (grounded_baseTypeStep reading).loop
      members := (grounded_memberStep reading).loop }
  · show reading.topStatement.Run _ _ (StatementReader.all _ _ (Cursor.start _)) _
    rw [start]
    exact onward_topStatement.run (by simp [size]) within
  · intro cursor reaches brace
    rw [start] at reaches
    obtain ⟨fence, suffix⟩ := reaches
    cases left : cursor.rest with
    | nil =>
      -- what stands at the end of the text is no brace
      rw [peek, left, fence] at brace
      cases ended.symm.trans (Token.isPunct_iff.mp brace).1
    | cons opener rest =>
      rw [peek, left] at brace
      rw [advance, left]
      exact specifiers_isSome [] (Lexer.exists_closing_of_suffix matched (left ▸ suffix) brace)

end Reading

/-- **Reading a text** fails where its tokens cannot be found, with the same error, and nowhere
else. All other texts are read to their end: each loop passes a token in each round or stops. -/
theorem parse_progress (reclassify : Bool) (text : String) :
    match tokenize text with
    | .error error => parse reclassify text = .error error
    | .ok tokens =>
      parse reclassify text = .ok (Construct.listNodes none
        (Reading.outline ⟨text.toList, reclassify⟩ tokens)) ∧
      Reading.Progress ⟨text.toList, reclassify⟩ tokens := by
  cases tokenized : tokenize text with
  | error error =>
    show parse reclassify text = .error error
    rw [parse, outline, tokenized]
    rfl
  | ok tokens =>
    obtain ⟨before, newline, rfl, -, matched⟩ := laid_of_tokenize tokenized
    refine ⟨?_, Reading.Progress.of_matched _ rfl matched⟩
    rw [parse, outline, tokenized]
    rfl

end SourceCanvas
