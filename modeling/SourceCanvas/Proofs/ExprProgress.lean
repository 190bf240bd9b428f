import SourceCanvas.Proofs.DescentLaws

/-!
# How readers of expressions get on

Each reader of expressions goes on behind a token that it has passed, or with a task of lower rank
where it stands (`Expr.Task.Asks`), so the step that puts them together is grounded
(`Expr.grounded_step`). A loop over arguments, elements, properties, parameters, operators or
accesses asks for itself again, and that is a task of the same rank: it has passed a token.
`Cursor.fuel` is therefore always enough, and the readers never come to the bottom.
-/

namespace SourceCanvas.Expr

open Cursor Extent

/-! ## Tasks -/

/-- The rank of a task. Where a reader stands it asks only for lower tasks. -/
def Task.rank : Task → Nat
  | .argumentTail | .arrayTail => 9
  | .element => 8
  | .assignment => 7
  | .conditional => 6
  | .binary _ => 5
  | .unary => 4
  | .callMember => 3
  | .primary | .parameterTail => 2
  | .functionExpression | .memberTail _ | .optionalTail _ | .objectTail | .parameter => 1
  | .arrow | .binaryTail _ _ | .memberPath _ | .arguments | .objectEntry | .parameterList
  | .decorators => 0

/-- What a reader may ask for: what lies ahead, or a lower task where it stands. -/
def Task.Asks : Asking Task := fun task cursor task' cursor' =>
  cursor.Reaches cursor' ∧
    (cursor'.size < cursor.size ∨ cursor'.size = cursor.size ∧ task'.rank < task.rank)

/-- A task of the same rank, such as another round of the same loop, is asked for only ahead. -/
theorem Task.Asks.advances {task task' : Task} {cursor cursor' : Cursor}
    (asks : task.Asks cursor task' cursor') (same : task'.rank = task.rank) :
    cursor.Advances cursor' := by
  obtain ⟨reaches, shorter | ⟨-, lower⟩⟩ := asks
  · exact ⟨reaches, shorter⟩
  · exact absurd lower (by omega)

/-- Where the cursor is after a task: a reader that goes on with something may find that nothing
follows, all others have passed a token. -/
def Task.Onward : Task → Cursor → Cursor → Prop
  | .binaryTail _ _ | .memberPath _ | .memberTail _ | .argumentTail | .arrayTail | .objectTail
  | .parameterTail | .decorators => Cursor.Reaches
  | _ => Cursor.Advances

/-- Two answers to a task are the same, and the cursor after what is found has got on. -/
abbrev Task.Same (task : Task) (cursor : Cursor) (answer answer' : task.Answer) : Prop :=
  SameFound (task.Onward cursor) answer answer'

/-- Readers to go on with answer the same wherever a task may ask them. -/
def SameFrom (next next' : Readers) (task : Task) (cursor : Cursor) : Prop :=
  ∀ task' cursor', task.Asks cursor task' cursor' →
    task'.Same cursor' (next task' cursor') (next' task' cursor')

section Step

variable {next next' : Readers} {task : Task} {cursor after : Cursor}

/-- What lies ahead may be asked for. -/
theorem SameFrom.behind (same : SameFrom next next' task cursor) (task' : Task)
    (advances : cursor.Advances after) :
    task'.Same after (next task' after) (next' task' after) :=
  same task' after ⟨advances.toReaches, .inl advances.shorter⟩

/-- A lower task may be asked for. -/
theorem SameFrom.lower (same : SameFrom next next' task cursor) (task' : Task)
    (reaches : cursor.Reaches after) (lower : task'.rank < task.rank) :
    task'.Same after (next task' after) (next' task' after) :=
  same task' after
    ⟨reaches, (Nat.lt_or_eq_of_le reaches.size_le).imp_right fun size => ⟨size, lower⟩⟩

/-! ## One reader at a time -/

theorem same_assignment (same : SameFrom next next' .assignment cursor) :
    Task.Same .assignment cursor (assignment next cursor) (assignment next' cursor) := by
  unfold assignment
  split
  · exact same.lower .arrow (.refl cursor) (by decide)
  · refine (same.lower .conditional (.refl cursor) (by decide)).bind fun left rest found => ?_
    dsimp only
    split
    · have passed := found.trans_reaches (reaches_advance rest)
      refine (same.behind .assignment passed).bind fun right rest found => ?_
      exact .some (passed.trans found)
    · exact .some found

theorem same_arrow (closed : cursor.fence.Closes) (same : SameFrom next next' .arrow cursor) :
    Task.Same .arrow cursor (arrow next cursor) (arrow next' cursor) := by
  unfold arrow
  dsimp only
  refine .known fun ⟨last, rest⟩ parametersRead => ?_
  have passed := reaches_advance_if.trans_advances
    (advances_arrowParameters (reaches_advance_if.closes closed) parametersRead)
  refine .known fun rest typeRead => ?_
  replace passed := passed.trans_reaches (reaches_arrowType typeRead)
  refine .known fun ⟨mark, rest⟩ markRead => ?_
  replace passed := passed.trans_reaches (reaches_expectPunct markRead)
  dsimp only
  split
  · refine .known fun ⟨closer, rest⟩ bodyRead => ?_
    exact .some (passed.trans (advances_balanced bodyRead))
  · refine (same.behind .assignment passed).bind fun body rest found => ?_
    exact .some (passed.trans found)

theorem same_conditional (same : SameFrom next next' .conditional cursor) :
    Task.Same .conditional cursor (conditional next cursor) (conditional next' cursor) := by
  unfold conditional
  refine (same.lower (.binary 1) (.refl cursor) (by decide)).bind fun test rest found => ?_
  dsimp only
  split
  · have passed := found.trans_reaches (reaches_advance rest)
    refine (same.behind .assignment passed).bind fun whenTrue rest found => ?_
    replace passed := passed.trans found
    refine .known fun ⟨colon, rest⟩ colonRead => ?_
    replace passed := passed.trans_reaches (reaches_expectPunct colonRead)
    refine (same.behind .assignment passed).bind fun whenFalse rest found => ?_
    exact .some (passed.trans found)
  · exact .some found

theorem same_binary {least : Nat} (same : SameFrom next next' (.binary least) cursor) :
    Task.Same (.binary least) cursor (binary next least cursor) (binary next' least cursor) := by
  unfold binary
  refine (same.lower .unary (.refl cursor) (Nat.lt_succ_self 4)).bind fun left rest found => ?_
  exact (same.behind (.binaryTail least left) found).imp fun _ => found.trans_reaches

theorem same_binaryTail {least : Nat} {left : Expr} (closed : cursor.fence.Closes)
    (same : SameFrom next next' (.binaryTail least left) cursor) :
    Task.Same (.binaryTail least left) cursor (binaryTail next least left cursor)
      (binaryTail next' least left cursor) := by
  unfold binaryTail
  dsimp only
  split
  · refine .known fun ⟨stop, rest⟩ typeRead => ?_
    have passed := (reaches_advance cursor).trans_advances (advances_assertedType closed typeRead)
    exact (same.behind _ passed).imp fun _ => passed.toReaches.trans
  · cases operator : cursor.peek.precedence? with
    | none => exact .some (.refl cursor)
    | some precedence =>
      dsimp only
      split
      · exact .some (.refl cursor)
      · have passed := advances_of_not_closes closed (Token.not_closes_of_precedence? operator)
        refine (same.behind (.binary _) passed).bind fun right rest found => ?_
        replace passed := passed.trans found
        exact (same.behind _ passed).imp fun _ => passed.toReaches.trans

theorem same_unary (closed : cursor.fence.Closes) (same : SameFrom next next' .unary cursor) :
    Task.Same .unary cursor (unary next cursor) (unary next' cursor) := by
  unfold unary
  dsimp only
  split
  · next operator =>
    have passed := advances_of_not_closes closed (Token.not_closes_of_unary operator)
    refine (same.behind .unary passed).bind fun operand rest found => ?_
    dsimp only
    split
    · exact .some (passed.trans found)
    · exact .some (passed.trans found)
  split
  · exact .none
  · refine (same.lower .callMember (.refl cursor) (by decide)).bind fun expr rest found => ?_
    dsimp only
    split
    · exact .some (found.trans_reaches (reaches_advance rest))
    · exact .some found

theorem same_callMember (closed : cursor.fence.Closes)
    (same : SameFrom next next' .callMember cursor) :
    Task.Same .callMember cursor (callMember next cursor) (callMember next' cursor) := by
  unfold callMember
  dsimp only
  split
  · next marked =>
    have word := (Bool.and_eq_true _ _ ▸ marked).1
    have passed := advances_of_identifier closed (Token.kind_of_isWord word)
    refine (same.behind .primary passed).bind fun target rest found => ?_
    replace passed := passed.trans found
    refine (same.behind (.memberPath target) passed).bind fun target rest found => ?_
    replace passed := passed.trans_reaches found
    dsimp only
    split
    · refine (same.behind .arguments passed).bind fun args rest found => ?_
      replace passed := passed.trans found
      exact (same.behind _ passed).imp fun _ => passed.trans_reaches
    · exact (same.behind _ passed).imp fun _ => passed.trans_reaches
  · refine (same.lower .primary (.refl cursor) (by decide)).bind fun expr rest found => ?_
    exact (same.behind _ found).imp fun _ => found.trans_reaches

theorem same_memberPath {target : Expr} (closed : cursor.fence.Closes)
    (same : SameFrom next next' (.memberPath target) cursor) :
    Task.Same (.memberPath target) cursor (memberPath next target cursor)
      (memberPath next' target cursor) := by
  unfold memberPath
  split
  · refine .known fun ⟨name, rest⟩ nameRead => ?_
    have passed := (reaches_advance cursor).trans_advances (advances_memberName closed nameRead)
    exact (same.behind _ passed).imp fun _ => passed.toReaches.trans
  · exact .some (.refl cursor)

/-- Access by an expression in square brackets. -/
theorem same_index (build : Expr → Token → Expr) (passed : cursor.Advances after)
    (same : SameFrom next next' task cursor) :
    SameFound cursor.Advances
      (do
        let (index, rest) ← next .assignment after
        let (closer, rest) ← rest.expectPunct "]"
        next (.memberTail (build index closer)) rest)
      (do
        let (index, rest) ← next' .assignment after
        let (closer, rest) ← rest.expectPunct "]"
        next' (.memberTail (build index closer)) rest) := by
  refine (same.behind .assignment passed).bind fun index rest found => ?_
  replace passed := passed.trans found
  refine .known fun ⟨closer, rest⟩ closerRead => ?_
  replace passed := passed.trans_reaches (reaches_expectPunct closerRead)
  exact (same.behind _ passed).imp fun _ => passed.trans_reaches

theorem same_memberTail {expr : Expr} (closed : cursor.fence.Closes)
    (same : SameFrom next next' (.memberTail expr) cursor) :
    Task.Same (.memberTail expr) cursor (memberTail next expr cursor)
      (memberTail next' expr cursor) := by
  unfold memberTail
  dsimp only
  split
  · refine .known fun ⟨name, rest⟩ nameRead => ?_
    have passed := (reaches_advance cursor).trans_advances (advances_memberName closed nameRead)
    exact (same.behind _ passed).imp fun _ => passed.toReaches.trans
  split
  · next mark =>
    have passed := advances_of_isPunct closed mark (by decide)
    exact (same.behind (.optionalTail expr) passed).imp fun _ found =>
      (passed.trans found).toReaches
  split
  · have found := same.lower .arguments (.refl cursor) (Nat.lt_succ_self 0)
    refine found.bind fun args rest found => ?_
    exact (same.behind _ found).imp fun _ => found.toReaches.trans
  · cases types : (if cursor.peek.isPunct "<" = true then typeArguments? 0 cursor.rest
      else none) with
    | some rest =>
      have passed := advances_typeArguments? closed types
      exact (same.behind (.memberTail expr) passed).imp fun _ => passed.toReaches.trans
    | none =>
      dsimp only
      split
      · next opener =>
        have passed := advances_of_isPunct closed opener (by decide)
        exact (same_index (fun index closer => .mk .other ⟨expr.start, closer.stop⟩ [expr, index])
          passed same).imp fun _ => Advances.toReaches
      split
      · next mark =>
        have passed := advances_of_not_closes closed (Token.not_closes_of_suffix mark)
        exact (same.behind _ passed).imp fun _ => passed.toReaches.trans
      · exact .some (.refl cursor)

theorem same_optionalTail {expr : Expr} (closed : cursor.fence.Closes)
    (same : SameFrom next next' (.optionalTail expr) cursor) :
    Task.Same (.optionalTail expr) cursor (optionalTail next expr cursor)
      (optionalTail next' expr cursor) := by
  unfold optionalTail
  split
  · have found := same.lower .arguments (.refl cursor) (Nat.lt_succ_self 0)
    refine found.bind fun args rest found => ?_
    exact (same.behind _ found).imp fun _ => found.trans_reaches
  split
  · next opener =>
    exact same_index (fun index closer => .mk .other ⟨expr.start, closer.stop⟩ [expr, index])
      (advances_of_isPunct closed opener (by decide)) same
  · refine .known fun ⟨name, rest⟩ nameRead => ?_
    have passed := advances_memberName closed nameRead
    exact (same.behind _ passed).imp fun _ => passed.trans_reaches

theorem same_arguments (closed : cursor.fence.Closes)
    (same : SameFrom next next' .arguments cursor) :
    Task.Same .arguments cursor (arguments next cursor) (arguments next' cursor) := by
  unfold arguments
  refine .known fun ⟨opener, rest⟩ openerRead => ?_
  have passed := advances_expectPunct closed (by decide) openerRead
  refine (same.behind .argumentTail passed).bind fun args rest found => ?_
  replace passed := passed.trans_reaches found
  refine .known fun ⟨closer, rest⟩ closerRead => ?_
  exact .some (passed.trans_reaches (reaches_expectPunct closerRead))

theorem same_argumentTail (same : SameFrom next next' .argumentTail cursor) :
    Task.Same .argumentTail cursor (argumentTail next cursor) (argumentTail next' cursor) := by
  unfold argumentTail
  split
  · exact .some (.refl cursor)
  · refine (same.lower .element (.refl cursor) (by decide)).bind fun argument rest found => ?_
    dsimp only
    split
    · have passed := found.trans_reaches (reaches_advance rest)
      refine (same.behind .argumentTail passed).bind fun args rest found => ?_
      exact .some (passed.toReaches.trans found)
    split
    · exact .some found.toReaches
    · exact .none

theorem same_element (closed : cursor.fence.Closes) (same : SameFrom next next' .element cursor) :
    Task.Same .element cursor (element next cursor) (element next' cursor) := by
  unfold element
  split
  · next dots =>
    have passed := advances_of_isPunct closed dots (by decide)
    refine (same.behind .assignment passed).bind fun inner rest found => ?_
    exact .some (passed.trans found)
  · exact same.lower .assignment (.refl cursor) (by decide)

theorem same_primary (closed : cursor.fence.Closes) (same : SameFrom next next' .primary cursor) :
    Task.Same .primary cursor (primary next cursor) (primary next' cursor) := by
  unfold primary
  dsimp only
  split
  · next word =>
    have passed := advances_of_identifier closed word
    split
    · exact .some passed
    split
    · exact same.lower .functionExpression (.refl cursor) (by decide)
    split
    · exact .none
    · exact .some passed
  · next number =>
    exact .some (advances_of_not_closes closed (Token.not_closes_of_kind number (by decide)))
  · next string =>
    exact .some (advances_of_not_closes closed (Token.not_closes_of_kind string (by decide)))
  · next template =>
    exact .some (advances_of_not_closes closed (Token.not_closes_of_kind template (by decide)))
  · next regex =>
    exact .some (advances_of_not_closes closed (Token.not_closes_of_kind regex (by decide)))
  · next punct =>
    have opens {value : String} (opener : cursor.peek.value = value)
        (apart : [")", "]", "\x7d"].contains value = false) : cursor.Advances cursor.advance :=
      advances_of_not_closes closed (Token.not_closes_of_value punct (opener ▸ apart))
    split
    · next opener =>
      have passed := opens opener (by decide)
      refine (same.behind .assignment passed).bind fun inner rest found => ?_
      refine .known fun ⟨closer, rest⟩ closerRead => ?_
      exact .some ((passed.trans found).trans_reaches (reaches_expectPunct closerRead))
    split
    · next opener =>
      have passed := opens opener (by decide)
      refine (same.behind .arrayTail passed).bind fun elements rest found => ?_
      refine .known fun ⟨closer, rest⟩ closerRead => ?_
      exact .some (passed.trans_reaches (found.trans (reaches_expectPunct closerRead)))
    split
    · next opener =>
      have passed := opens opener (by decide)
      refine (same.behind .objectTail passed).bind fun parts rest found => ?_
      refine .known fun ⟨closer, rest⟩ closerRead => ?_
      exact .some (passed.trans_reaches (found.trans (reaches_expectPunct closerRead)))
    · exact .none
  · exact .none

theorem same_functionExpression (same : SameFrom next next' .functionExpression cursor) :
    Task.Same .functionExpression cursor (functionExpression next cursor)
      (functionExpression next' cursor) := by
  unfold functionExpression
  dsimp only
  refine .known fun rest typesRead => ?_
  have reached : cursor.Reaches rest :=
    (reaches_advance_if.trans (reaches_advance _)).trans
      (reaches_skipPunct.trans (reaches_advance_if.trans (reaches_typeParameters typesRead)))
  refine (same.lower .parameterList reached (by decide)).bind fun parameters rest found => ?_
  have passed := reached.trans_advances found
  refine .known fun ⟨result, rest⟩ resultRead => ?_
  replace passed := passed.trans_reaches (reaches_resultType resultRead)
  refine .known fun ⟨closer, rest⟩ bodyRead => ?_
  exact .some (passed.trans (advances_closedBody bodyRead))

theorem same_arrayTail (closed : cursor.fence.Closes)
    (same : SameFrom next next' .arrayTail cursor) :
    Task.Same .arrayTail cursor (arrayTail next cursor) (arrayTail next' cursor) := by
  unfold arrayTail
  split
  · exact .some (.refl cursor)
  split
  · next comma =>
    have passed := advances_of_isPunct closed comma (by decide)
    exact (same.behind .arrayTail passed).imp fun _ => passed.toReaches.trans
  · refine (same.lower .element (.refl cursor) (by decide)).bind fun first rest found => ?_
    dsimp only
    split
    · refine (same.behind .arrayTail found).bind fun elements rest on => ?_
      exact .some (found.toReaches.trans on)
    · exact .none

theorem same_objectTail (same : SameFrom next next' .objectTail cursor) :
    Task.Same .objectTail cursor (objectTail next cursor) (objectTail next' cursor) := by
  unfold objectTail
  split
  · exact .some (.refl cursor)
  · refine (same.lower .objectEntry (.refl cursor) (by decide)).bind fun entry rest found => ?_
    dsimp only
    split
    · have passed := found.trans_reaches (reaches_advance rest)
      refine (same.behind .objectTail passed).bind fun others rest found => ?_
      exact .some (passed.toReaches.trans found)
    split
    · exact .some found.toReaches
    · exact .none

theorem same_objectEntry (closed : cursor.fence.Closes)
    (same : SameFrom next next' .objectEntry cursor) :
    Task.Same .objectEntry cursor (objectEntry next cursor) (objectEntry next' cursor) := by
  unfold objectEntry
  split
  · next dots =>
    have passed := advances_of_isPunct closed dots (by decide)
    refine (same.behind .assignment passed).bind fun value rest found => ?_
    exact .some (passed.trans found)
  · refine .known fun ⟨key, rest⟩ keyRead => ?_
    have passed := advances_objectKey closed keyRead
    dsimp only
    split
    · replace passed := passed.trans_reaches (reaches_advance rest)
      refine (same.behind .assignment passed).bind fun value rest found => ?_
      exact .some (passed.trans found)
    split
    · refine .known fun rest typesRead => ?_
      replace passed := passed.trans_reaches (reaches_typeParameters typesRead)
      refine (same.behind .parameterList passed).bind fun parameters rest found => ?_
      replace passed := passed.trans found
      refine .known fun ⟨result, rest⟩ resultRead => ?_
      replace passed := passed.trans_reaches (reaches_resultType resultRead)
      refine .known fun ⟨closer, rest⟩ bodyRead => ?_
      exact .some (passed.trans (advances_closedBody bodyRead))
    split
    · exact .some passed
    · exact .none

theorem same_parameterList (closed : cursor.fence.Closes)
    (same : SameFrom next next' .parameterList cursor) :
    Task.Same .parameterList cursor (parameterList next cursor) (parameterList next' cursor) := by
  unfold parameterList
  refine .known fun ⟨opener, rest⟩ openerRead => ?_
  have passed := advances_expectPunct closed (by decide) openerRead
  refine (same.behind .parameterTail passed).bind fun parameters rest found => ?_
  replace passed := passed.trans_reaches found
  refine .known fun ⟨closer, rest⟩ closerRead => ?_
  exact .some (passed.trans_reaches (reaches_expectPunct closerRead))

theorem same_parameterTail (same : SameFrom next next' .parameterTail cursor) :
    Task.Same .parameterTail cursor (parameterTail next cursor) (parameterTail next' cursor) := by
  unfold parameterTail
  split
  · exact .some (.refl cursor)
  · refine (same.lower .parameter (.refl cursor) (by decide)).bind fun first rest found => ?_
    dsimp only
    split
    · have passed := found.trans_reaches (reaches_advance rest)
      refine (same.behind .parameterTail passed).bind fun parameters rest found => ?_
      exact .some (passed.toReaches.trans found)
    split
    · exact .some found.toReaches
    · exact .none

theorem same_parameter (closed : cursor.fence.Closes)
    (same : SameFrom next next' .parameter cursor) :
    Task.Same .parameter cursor (parameter next cursor) (parameter next' cursor) := by
  unfold parameter
  refine (same.lower .decorators (.refl cursor) (by decide)).bind fun _ rest found => ?_
  dsimp only
  refine .known fun ⟨last, middle⟩ nameRead => ?_
  have opens : cursor.Reaches ((rest.move (dropModifiers rest.rest)).skipPunct "...") :=
    found.trans (reaches_dropModifiers.trans reaches_skipPunct)
  have passed := opens.trans_advances (advances_parameterName (opens.closes closed) nameRead)
  refine .known fun ⟨type, rest⟩ typeRead => ?_
  replace passed := passed.trans_reaches (reaches_skipPunct.trans (reaches_parameterType typeRead))
  dsimp only
  split
  · replace passed := passed.trans_reaches (reaches_advance rest)
    refine (same.behind .assignment passed).bind fun value rest found => ?_
    exact .some (passed.trans found)
  · exact .some passed

theorem same_decorators (closed : cursor.fence.Closes)
    (same : SameFrom next next' .decorators cursor) :
    Task.Same .decorators cursor (decorators next cursor) (decorators next' cursor) := by
  unfold decorators
  split
  · next mark =>
    have passed := advances_of_isPunct closed mark (by decide)
    refine (same.behind .callMember passed).bind fun decorator rest found => ?_
    replace passed := passed.trans found
    exact (same.behind .decorators passed).imp fun _ => passed.toReaches.trans
  · exact .some (.refl cursor)

/-! ## All readers together -/

/-- The readers of expressions go on behind a token that they have passed, or with a lower task. -/
theorem grounded_step : Grounded Task.Asks Task.Same Expr.step := by
  intro next next' task cursor closed same
  cases task with
  | assignment => exact same_assignment same
  | arrow => exact same_arrow closed same
  | conditional => exact same_conditional same
  | binary least => exact same_binary same
  | binaryTail least left => exact same_binaryTail closed same
  | unary => exact same_unary closed same
  | callMember => exact same_callMember closed same
  | memberPath target => exact same_memberPath closed same
  | memberTail expr => exact same_memberTail closed same
  | optionalTail expr => exact same_optionalTail closed same
  | arguments => exact same_arguments closed same
  | argumentTail => exact same_argumentTail same
  | element => exact same_element closed same
  | primary => exact same_primary closed same
  | functionExpression => exact same_functionExpression same
  | arrayTail => exact same_arrayTail closed same
  | objectTail => exact same_objectTail same
  | objectEntry => exact same_objectEntry closed same
  | parameterList => exact same_parameterList closed same
  | parameterTail => exact same_parameterTail same
  | parameter => exact same_parameter closed same
  | decorators => exact same_decorators closed same

end Step

/-! ## Depth -/

/-- The weight of a task at a cursor: the tokens left first, the rank among tasks second. -/
def Task.weight (task : Task) (cursor : Cursor) : Nat := 10 * cursor.size + task.rank

theorem Task.rank_lt (task : Task) : task.rank < 10 := by
  cases task <;> simp [Task.rank]

theorem Task.lighter_asks : Asking.Lighter Task.Asks Task.weight := by
  rintro task cursor task' cursor' ⟨reaches, less⟩
  have := task.rank_lt
  have := task'.rank_lt
  refine ⟨reaches, ?_⟩
  simp only [Task.weight]
  omega

theorem Task.weight_lt (task : Task) (cursor : Cursor) : task.weight cursor < cursor.fuel := by
  have := task.rank_lt
  simp only [Task.weight, Cursor.fuel]
  omega

/-- The depth that the readers are given is enough. -/
theorem bottomless_step : Bottomless Task.Asks Task.Same Expr.step Cursor.fuel :=
  grounded_step.bottomless Task.lighter_asks Task.weight_lt

/-- Where the cursor is after what the readers find. -/
theorem onward_readers {task : Task} {cursor after : Cursor} {found : task.Found}
    (closed : cursor.fence.Closes) (read : readers cursor.fuel task cursor = some (found, after)) :
    task.Onward cursor after :=
  (bottomless_step.deep _ (fun _ _ => none) _ _ task cursor closed (Nat.le_refl _)
    (Nat.le_refl _)).2 found after read

end SourceCanvas.Expr

namespace SourceCanvas.Cursor

variable {cursor after : Cursor}

theorem advances_expression {expr : Expr} (closed : cursor.fence.Closes)
    (read : cursor.expression = some (expr, after)) : cursor.Advances after :=
  Expr.onward_readers closed read

theorem advances_parameters {spans : List ParameterSpans} (closed : cursor.fence.Closes)
    (read : cursor.parameters = some (spans, after)) : cursor.Advances after :=
  Expr.onward_readers closed read

end SourceCanvas.Cursor
