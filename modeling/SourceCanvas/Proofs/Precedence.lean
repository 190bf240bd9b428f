import SourceCanvas.Proofs.ExprProgress
import SourceCanvas.Proofs.Operations
import SourceCanvas.Proofs.Outlines

/-!
# Reading by precedence

Readers with enough depth answer as their own step does (`Expr.read_eq`), so what they read in a
text follows from what they read in its parts. An operation that is written with the parentheses
that the precedences ask for is read as the tree it was: its operands are read to the end, and what
comes behind it has a lower precedence or closes it (`Written.read_binary`).
-/

namespace SourceCanvas

/-! ## Readers that go on with themselves -/

namespace Expr

/-- The readers, each as deep as the tokens ask for. -/
def read : Readers := fun task cursor => readers cursor.fuel task cursor

/-- The readers go on with each other as if there were no depth. -/
theorem read_eq {cursor : Cursor} (closed : cursor.fence.Closes) (task : Task) :
    read task cursor = step read task cursor := by
  have deeper := (bottomless_step.deep (fun _ _ => none) (fun _ _ => none) cursor.fuel
    (cursor.fuel + 1) task cursor closed (Nat.le_refl _) (Nat.le_succ _)).1
  have again := (bottomless_step.grounded (readers cursor.fuel) read task cursor closed
    fun task' cursor' asks => ?_).1
  · exact deeper.trans again
  · have shrinks : cursor'.fuel ≤ cursor.fuel := by
      have := asks.1.size_le
      simp only [Cursor.fuel]
      omega
    exact bottomless_step.deep _ _ cursor.fuel cursor'.fuel task' cursor'
      (asks.1.closes closed) shrinks (Nat.le_refl _)

/-! ## Where an operand ends -/

/-- The marks that go on with an operand, with a choice, an assignment or an arrow function. -/
def continuations : List String :=
  [".", "?.", "(", "<", "[", "!", "++", "--", "?", ":", "=>"] ++ assignmentOperators

/-- A token that ends an operand: no access, call or assignment goes on with it, and if it is an
operator, its precedence is below the least one that is read. -/
structure Ends (least : Nat) (token : Token) : Prop where
  marks : token.isPunctIn continuations = false
  words : token.kind = .identifier → token.value ∈ ["instanceof", "in"]
  plain : token.kind ≠ .template
  lower : token.precedence?.all (· < least) = true

variable {least : Nat} {token : Token} {cursor after : Cursor} {expr : Expr}

namespace Ends

theorem isPunct (ends : Ends least token) (mark : String) (member : mark ∈ continuations) :
    token.isPunct mark = false := by
  refine Bool.eq_false_iff.mpr fun same => ?_
  obtain ⟨kind, rfl⟩ := Token.isPunct_iff.mp same
  have absent := Bool.eq_false_iff.mp ends.marks
  exact absent (Token.isPunctIn_iff.mpr ⟨kind, member⟩)

theorem isPunctIn (ends : Ends least token) (marks : List String)
    (members : marks ⊆ continuations) : token.isPunctIn marks = false := by
  refine Bool.eq_false_iff.mpr fun same => ?_
  obtain ⟨kind, member⟩ := Token.isPunctIn_iff.mp same
  exact Bool.eq_false_iff.mp ends.marks (Token.isPunctIn_iff.mpr ⟨kind, members member⟩)

theorem isWordIn (ends : Ends least token) (words : List String)
    (apart : ∀ word ∈ ["instanceof", "in"], word ∉ words) : token.isWordIn words = false := by
  refine Bool.eq_false_iff.mpr fun same => ?_
  obtain ⟨kind, member⟩ := Token.isWordIn_iff.mp same
  exact apart token.value (ends.words kind) member

/-- No operator of the least precedence or above comes next. -/
theorem binaryTail (ends : Ends least after.peek) (closed : after.fence.Closes) :
    read (.binaryTail least expr) after = some (expr, after) := by
  have lower := ends.lower
  rw [read_eq closed, step, Expr.binaryTail, ends.isWordIn ["as", "satisfies"] (by decide)]
  simp only [Bool.false_and, Bool.false_eq_true, if_false]
  split
  · rfl
  · next precedence known =>
    rw [known] at lower
    rw [if_pos (by simpa using lower)]

/-- No access or call comes next. -/
theorem memberTail (ends : Ends least after.peek) (closed : after.fence.Closes) :
    read (.memberTail expr) after = some (expr, after) := by
  rw [read_eq closed, step, Expr.memberTail]
  simp [ends.isPunct "." (by decide), ends.isPunct "?." (by decide),
    ends.isPunct "(" (by decide), ends.isPunct "<" (by decide),
    ends.isPunct "[" (by decide), ends.isPunct "!" (by decide), ends.plain]

end Ends

/-- A token that starts an operand without an operator before it. -/
structure Starts (token : Token) : Prop where
  marks : token.isPunctIn unaryOperators = false
  words : token.isWordIn unaryWords = false
  angle : token.isPunct "<" = false
  other : token.isWord "new" = false

/-- A simple expression with no operator before it and no access behind it is an operand. -/
theorem Starts.operand {bound : Nat} (starts : Starts cursor.peek) (ends : Ends bound after.peek)
    (closed : cursor.fence.Closes) (closed' : after.fence.Closes)
    (found : read .primary cursor = some (expr, after)) :
    read (.binary least) cursor = read (.binaryTail least expr) after := by
  have member : read .callMember cursor = some (expr, after) := by
    rw [read_eq closed, step, callMember]
    simp [starts.other, found, ends.memberTail closed']
  have operand : read .unary cursor = some (expr, after) := by
    rw [read_eq closed, step, unary]
    simp [starts.marks, starts.words, starts.angle, member,
      ends.isPunctIn ["++", "--"] (by decide)]
  rw [read_eq closed, step, binary]
  simp [operand]

/-- A word is no parameter where no arrow comes behind it, or behind the word after it. -/
theorem atArrow_word {word following fence : Token} {rest : List Token}
    (kind : word.kind = .identifier) (arrow : following.isPunct "=>" = false)
    (call : following.isPunct "(" = false)
    (async : following.kind = .identifier → (rest.headD fence).isPunct "=>" = false) :
    (⟨word :: following :: rest, fence⟩ : Cursor).atArrow = false := by
  simp only [Cursor.atArrow, Cursor.peek, Cursor.peekAt, List.headD_cons, List.getD_cons_succ,
    List.getD_cons_zero, call, Bool.or_false]
  split
  · next isAsync =>
    simp only [Bool.and_eq_true, beq_iff_eq] at isAsync
    have next := isAsync.1.2
    cases rest <;> simpa [Cursor.advance, next] using async next
  · simp [kind, arrow]

/-- What is in parentheses is no parameter where neither an arrow nor a type comes behind it. -/
theorem atArrow_paren {opener closer following fence : Token} {inner rest : List Token}
    (opens : opener.isPunct "(" = true)
    (enclosed : Extent.balanced ⟨opener :: inner, fence⟩ =
      some (closer, ⟨following :: rest, fence⟩))
    (arrow : following.isPunct "=>" = false) (type : following.isPunct ":" = false) :
    (⟨opener :: inner, fence⟩ : Cursor).atArrow = false := by
  have kind := (Token.isPunct_iff.mp opens).1
  have word : opener.isWord "async" = false := by simp [Token.isWord, kind]
  simp [Cursor.atArrow, Cursor.peek, opens, kind, word, enclosed, arrow, type]

/-- An operator of at least the least precedence is read with its right operand. -/
theorem read_operator {fence : Token} {rest : List Token} {precedence : Nat} {left right : Expr}
    (closed : fence.Closes) (word : token.isWordIn ["as", "satisfies"] = false)
    (known : token.precedence? = some precedence) (enough : least ≤ precedence)
    (found : read (.binary (nextPrecedence token.value precedence)) ⟨rest, fence⟩ =
      some (right, after)) :
    read (.binaryTail least left) ⟨token :: rest, fence⟩ =
      read (.binaryTail least
        (.mk (.binary token.value) ⟨left.start, right.stop⟩ [left, right])) after := by
  rw [read_eq closed, step, Expr.binaryTail]
  simp [Cursor.peek, Cursor.advance, word, known, Nat.not_lt.mpr enough, found]

/-- Parentheses are read with the expression in them. -/
theorem read_paren {opener closer fence : Token} {inside rest : List Token}
    (closed : fence.Closes) (opens : opener.isPunct "(" = true) (closes : closer.isPunct ")" = true)
    (found : read .assignment ⟨inside, fence⟩ = some (expr, ⟨closer :: rest, fence⟩)) :
    read .primary ⟨opener :: inside, fence⟩ =
      some (.mk .paren ⟨opener.start, closer.stop⟩ [expr], ⟨rest, fence⟩) := by
  obtain ⟨kind, value⟩ := Token.isPunct_iff.mp opens
  rw [read_eq closed, step, primary]
  simp [Cursor.peek, Cursor.advance, Cursor.expectPunct, kind, value, found, closes]

/-- An operation that a mark closes is a whole expression. -/
theorem read_assignment (closed : cursor.fence.Closes) (closed' : after.fence.Closes)
    (arrow : cursor.atArrow = false) (ends : Ends 1 after.peek)
    (found : read (.binary 1) cursor = read (.binaryTail 1 expr) after) :
    read .assignment cursor = some (expr, after) := by
  have choice : read .conditional cursor = some (expr, after) := by
    rw [read_eq closed, step, conditional, found, ends.binaryTail closed']
    simp [ends.isPunct "?" (by decide)]
  rw [read_eq closed, step, assignment, arrow]
  simp [choice, ends.isPunctIn assignmentOperators (by decide)]

end Expr

/-! ## What is written as an expression -/

namespace Written

open Expr (Ends Starts read read_eq)

/-- The expression that is written at an offset. -/
def expr : Written → Nat → Expr
  | .name identifier, offset => .mk .identifier ⟨offset, offset + identifier.text.length⟩ []
  | .paren inner, offset =>
    .mk .paren ⟨offset, offset + (Written.paren inner).text.length⟩ [inner.expr (offset + 1)]
  | .apply operator left right, offset =>
    .mk (.binary operator.symbol)
      ⟨offset, offset + (Written.apply operator left right).text.length⟩
      [left.expr offset, right.expr (offset + left.text.length + operator.symbol.length + 2)]

/-- What may come behind an operand: an operator below a precedence with its right operand, or a
mark that closes what the operand stands in. -/
inductive Behind (least : Nat) : List Token → Prop where
  | operator {operator offset right offset' rest} (lower : Operator.precedence operator < least) :
      Behind least (operator.token offset :: (Written.tokens right offset' ++ rest))
  | closing {token rest} (closes : token.isPunctIn [")", ";"] = true) :
      Behind least (token :: rest)

variable {least : Nat} {behind : List Token} {fence : Token} {written : Written}

theorem span_expr (written : Written) (offset : Nat) :
    (written.expr offset).span = ⟨offset, offset + written.text.length⟩ := by
  cases written <;> rfl

theorem precedence?_token (operator : Operator) (offset : Nat) :
    (operator.token offset).precedence? = some operator.precedence := by
  have known : (operator.token offset).kind = .punctuator ∨
      (operator.token offset).isWordIn ["instanceof", "in"] = true :=
    operator.kind_cases.symm.imp_right Token.isWordIn_iff.mpr
  rw [Token.precedence?, if_pos (by simpa using known)]
  exact operator.lookup

/-- An operator ends the operand before it. -/
theorem ends_operator {operator : Operator} (lower : operator.precedence < least) (offset : Nat) :
    Ends least (operator.token offset) where
  marks := operator.isPunctIn_token offset _ (by decide)
  words kind := by
    rcases operator.kind_cases with ⟨-, word⟩ | kind'
    · exact word
    · exact absurd (kind.symm.trans kind') (by decide)
  plain := by
    rcases operator.kind_cases with ⟨kind, -⟩ | kind <;>
      simp [Operator.token, Token.inLine, kind]
  lower := by simpa [precedence?_token] using lower

/-- A closing mark ends the operand before it. -/
theorem ends_closing {token : Token} (closes : token.isPunctIn [")", ";"] = true) :
    Ends least token := by
  obtain ⟨kind, value⟩ := Token.isPunctIn_iff.mp closes
  refine ⟨?_, ?_, by simp [kind], ?_⟩
  · refine Bool.eq_false_iff.mpr fun mark => ?_
    have absent : ∀ value ∈ [")", ";"], value ∉ Expr.continuations := by decide
    exact absent token.value value (Token.isPunctIn_iff.mp mark).2
  · simp [kind]
  · have none : ∀ value ∈ [")", ";"], binaryPrecedence.lookup value = none := by decide
    rw [Token.precedence?, if_pos (by simp [kind]), none token.value value]
    rfl

theorem Behind.ends (behind' : Behind least behind) :
    ∃ token rest, behind = token :: rest ∧ Ends least token := by
  cases behind' with
  | operator lower => exact ⟨_, _, rfl, ends_operator lower _⟩
  | closing closes => exact ⟨_, _, rfl, ends_closing closes⟩

/-- What is written starts with a name or a parenthesis. -/
theorem starts_tokens (written : Written) (offset : Nat) : ∃ token rest,
    written.tokens offset = token :: rest ∧ Starts token ∧ token.isPunct "=>" = false := by
  induction written generalizing offset with
  | name identifier =>
    have free := identifier.free
    simp only [keywords, List.mem_append, not_or] at free
    refine ⟨_, [], rfl, ⟨rfl, ?_, rfl, ?_⟩, rfl⟩
    · simpa [Token.isWordIn, Token.inLine] using free.1.2
    · have new : identifier.text ≠ "new" := by
        intro same
        rw [same] at free
        exact free.2 (by decide)
      simpa [Token.isWord, Token.inLine] using new
  | paren inner => exact ⟨_, _, rfl, ⟨rfl, rfl, rfl, rfl⟩, rfl⟩
  | apply operator left right leftStarts =>
    obtain ⟨token, rest, same, starts⟩ := leftStarts offset
    exact ⟨token, _, by rw [tokens, same, List.cons_append], starts⟩

/-- What is written is no arrow function. -/
theorem atArrow_eq_false (written : Written) {offset : Nat} (behind' : Behind least behind) :
    (⟨written.tokens offset ++ behind, fence⟩ : Cursor).atArrow = false := by
  induction written generalizing offset least behind with
  | name identifier =>
    cases behind' with
    | @operator operator _ right offset' rest lower =>
      have ends := ends_operator (Nat.lt_succ_self operator.precedence)
      obtain ⟨token, others, same, -, arrow⟩ := right.starts_tokens offset'
      refine Expr.atArrow_word rfl ((ends _).isPunct "=>" (by decide))
        ((ends _).isPunct "(" (by decide)) fun _ => ?_
      rw [same]
      exact arrow
    | closing closes =>
      have ends : Ends least _ := ends_closing closes
      refine Expr.atArrow_word rfl (ends.isPunct "=>" (by decide)) (ends.isPunct "(" (by decide))
        fun word => ?_
      rw [(Token.isPunctIn_iff.mp closes).1] at word
      cases word
  | paren inner =>
    obtain ⟨token, rest, rfl, ends⟩ := behind'.ends
    have pairs : Lexer.Pairs (.inLine .punctuator "(" offset)
        (.inLine .punctuator ")" (offset + inner.text.length + 1)) := ⟨rfl, rfl, rfl⟩
    have enclosed := pairs.balanced (inner.balanced (offset + 1)) (token :: rest) fence
    rw [tokens, List.cons_append, List.append_assoc]
    exact Expr.atArrow_paren rfl enclosed (ends.isPunct "=>" (by decide))
      (ends.isPunct ":" (by decide))
  | apply operator left right leftArrow =>
    rw [tokens, List.append_assoc]
    exact leftArrow (.operator (Nat.lt_succ_self operator.precedence))

/-- The precedence that an operator behind what is written has to be below. -/
def bound : Written → Nat
  | .name _ | .paren _ => 13
  | .apply operator _ _ => nextPrecedence operator.symbol operator.precedence

theorem nextPrecedence_eq (operator : Operator) :
    nextPrecedence operator.symbol operator.precedence =
      operator.precedence + if operator.isPower then 0 else 1 := by
  simp only [nextPrecedence, Operator.isPower, beq_iff_eq]
  split <;> rfl

theorem precedence_le_bound (written : Written) : written.precedence ≤ written.bound := by
  cases written with
  | name identifier => exact Nat.le_refl _
  | paren inner => exact Nat.le_refl _
  | apply operator left right =>
    rw [bound, nextPrecedence_eq]
    exact Nat.le_add_right _ _

/-- An operator ends a left operand that fits it. -/
theorem lt_bound_of_takesLeft {operator : Operator} {left : Written}
    (fits : operator.takesLeft left.precedence = true) : operator.precedence < left.bound := by
  simp only [Operator.takesLeft, Bool.or_eq_true, Bool.and_eq_true, decide_eq_true_eq, beq_iff_eq,
    Bool.not_eq_true'] at fits
  rcases fits with lower | ⟨same, power⟩
  · exact Nat.lt_of_lt_of_le lower left.precedence_le_bound
  · cases left with
    | name identifier => exact operator.precedence_lt
    | paren inner => exact operator.precedence_lt
    | apply operator' left' right' =>
      -- operators of the same precedence go to the same side
      have same : operator.precedence = operator'.precedence := same
      have power' : operator'.isPower = false := by
        rw [operator'.isPower_eq, ← same, ← operator.isPower_eq, power]
      rw [bound, nextPrecedence_eq, power', same]
      exact Nat.lt_succ_self _

/-- A right operand that fits its operator has all its operators read. -/
theorem le_precedence_of_takesRight {operator : Operator} {right : Written}
    (fits : operator.takesRight right.precedence = true) :
    nextPrecedence operator.symbol operator.precedence ≤ right.precedence := by
  simp only [Operator.takesRight, Bool.or_eq_true, Bool.and_eq_true, decide_eq_true_eq,
    beq_iff_eq] at fits
  rw [nextPrecedence_eq]
  rcases fits with lower | ⟨same, power⟩
  · split <;> omega
  · rw [if_pos power, same]
    exact Nat.le_refl _

theorem Behind.mono {least' : Nat} (behind' : Behind least behind) (le : least ≤ least') :
    Behind least' behind := by
  cases behind' with
  | operator lower => exact .operator (Nat.lt_of_lt_of_le lower le)
  | closing closes => exact .closing closes

theorem precedence_pos (written : Written) : 1 ≤ written.precedence := by
  cases written with
  | name identifier => exact Nat.le_add_left 1 12
  | paren inner => exact Nat.le_add_left 1 12
  | apply operator left right => exact operator.precedence_pos

theorem le_precedence_of_takesLeft {operator : Operator} {left : Written}
    (fits : operator.takesLeft left.precedence = true) :
    operator.precedence ≤ left.precedence := by
  simp only [Operator.takesLeft, Bool.or_eq_true, Bool.and_eq_true, decide_eq_true_eq,
    beq_iff_eq] at fits
  omega

/-- A name is read as a name. -/
theorem read_name (identifier : Identifier) {offset : Nat} {token : Token} {rest : List Token}
    (closed : fence.Closes) (ends : Ends least token) :
    read .primary ⟨(name identifier).tokens offset ++ token :: rest, fence⟩ =
      some ((name identifier).expr offset, ⟨token :: rest, fence⟩) := by
  have other : ∀ word ∈ ["true", "false", "function", "class"], identifier.text ≠ word := by
    rintro word member rfl
    exact identifier.free (List.mem_append_left _ (List.mem_append_left _ member))
  have function : token.isWord "function" = false := by
    simpa [Token.isWord, Token.isWordIn] using ends.isWordIn ["function"] (by decide)
  rw [read_eq closed, Expr.step, Expr.primary]
  simp [tokens, expr, Expr.leaf, Cursor.peek, Cursor.peekAt, Cursor.advance, Token.inLine, function,
    other]

/-- What is written up to a closing mark is a whole expression, if its operators are read. -/
theorem read_whole {offset : Nat} {token : Token} {rest : List Token} (closed : fence.Closes)
    (closes : token.isPunctIn [")", ";"] = true)
    (found : read (.binary 1) ⟨written.tokens offset ++ token :: rest, fence⟩ =
      read (.binaryTail 1 (written.expr offset)) ⟨token :: rest, fence⟩) :
    read .assignment ⟨written.tokens offset ++ token :: rest, fence⟩ =
      some (written.expr offset, ⟨token :: rest, fence⟩) :=
  have closing : Behind 1 (token :: rest) := .closing closes
  Expr.read_assignment closed closed (written.atArrow_eq_false closing) (ends_closing closes) found

/-- **Reading by precedence.** What is written is read as its tree, and reading goes on with what is
behind it, if all its operators are read and what is behind does not belong to its last operand. -/
theorem read_binary (closed : fence.Closes) (proper : written.Proper) {offset : Nat}
    (enough : least ≤ written.precedence) (behind' : Behind written.bound behind) :
    read (.binary least) ⟨written.tokens offset ++ behind, fence⟩ =
      read (.binaryTail least (written.expr offset)) ⟨behind, fence⟩ := by
  induction written generalizing least offset behind with
  | name identifier =>
    obtain ⟨token, rest, same, starts, -⟩ := (name identifier).starts_tokens offset
    obtain ⟨token', rest', rfl, ends⟩ := behind'.ends
    obtain ⟨rfl, rfl⟩ := List.cons.inj same
    exact Starts.operand starts ends closed closed (read_name identifier closed ends)
  | paren inner ih =>
    obtain ⟨token', rest', rfl, ends⟩ := behind'.ends
    have starts : Starts (.inLine .punctuator "(" offset) := ⟨rfl, rfl, rfl, rfl⟩
    have closes : (Token.inLine .punctuator ")" (offset + inner.text.length + 1)).isPunctIn
        [")", ";"] = true := rfl
    have found : read .primary ⟨(paren inner).tokens offset ++ token' :: rest', fence⟩ =
        some ((paren inner).expr offset, ⟨token' :: rest', fence⟩) := by
      rw [tokens, List.cons_append, List.append_assoc, expr, text_length_paren]
      exact Expr.read_paren closed rfl rfl
        (read_whole closed closes (ih proper inner.precedence_pos (.closing closes)))
    exact Starts.operand starts ends closed closed found
  | apply operator left right leftRead rightRead =>
    -- the left operand stops at the operator, which fits its bound; the right one is read whole,
    -- as what is behind is below the bound of the right operand too
    obtain ⟨⟨fitsLeft, leftProper⟩, fitsRight, rightProper⟩ := proper
    have next := le_precedence_of_takesRight fitsRight
    have enoughLeft := Nat.le_trans enough (le_precedence_of_takesLeft fitsLeft)
    have behindRight := behind'.mono (Nat.le_trans next right.precedence_le_bound)
    obtain ⟨token', rest', rfl, ends⟩ := behind'.ends
    have rightFound (offset : Nat) :
        read (.binary (nextPrecedence operator.symbol operator.precedence))
          ⟨right.tokens offset ++ token' :: rest', fence⟩ =
          some (right.expr offset, ⟨token' :: rest', fence⟩) :=
      (rightRead rightProper next behindRight).trans (Ends.binaryTail ends closed)
    have place (offset : Nat) : (operator.token offset).isWordIn ["as", "satisfies"] = false :=
      (ends_operator (Nat.lt_succ_self operator.precedence) offset).isWordIn _ (by decide)
    have span : (⟨(left.expr offset).start,
          (right.expr (offset + left.text.length + operator.symbol.length + 2)).stop⟩ : Span) =
        ⟨offset, offset + (apply operator left right).text.length⟩ := by
      have last : offset + left.text.length + operator.symbol.length + 2 + right.text.length =
          offset + (apply operator left right).text.length := by
        rw [text_length_apply]
        omega
      rw [Expr.start, Expr.stop, span_expr, span_expr, last]
    rw [tokens, List.append_assoc, List.cons_append, leftRead leftProper enoughLeft
      (.operator (lt_bound_of_takesLeft fitsLeft)), Expr.read_operator closed (place _)
      (precedence?_token operator _) enough (rightFound _), span]
    rfl

end Written

/-! ## Nodes -/

namespace Written

variable {source : List Char} {offset : Nat} {written : Written}

/-- The text of what is written lies at an offset in a source. -/
def LiesAt (written : Written) (source : List Char) (offset : Nat) : Prop :=
  ∃ front back, source = front ++ (written.text.toList ++ back) ∧ front.length = offset

/-- The expression at an offset has the text that is written there. -/
theorem LiesAt.slice_expr (lies : written.LiesAt source offset) :
    (written.expr offset).span.slice source = written.text := by
  obtain ⟨front, back, rfl, rfl⟩ := lies
  rw [span_expr, Span.slice]
  simp [← String.length_toList]

theorem LiesAt.inner {inner : Written} (lies : (paren inner).LiesAt source offset) :
    inner.LiesAt source (offset + 1) := by
  obtain ⟨front, back, rfl, rfl⟩ := lies
  exact ⟨front ++ ['('], ')' :: back, by simp [text], by simp⟩

theorem LiesAt.operands {operator : Operator} {left right : Written}
    (lies : (apply operator left right).LiesAt source offset) :
    left.LiesAt source offset ∧
      right.LiesAt source (offset + left.text.length + operator.symbol.length + 2) := by
  obtain ⟨front, back, rfl, rfl⟩ := lies
  refine ⟨⟨front, ' ' :: (operator.symbol.toList ++ ' ' :: (right.text.toList ++ back)), ?_, rfl⟩,
    ⟨front ++ (left.text.toList ++ ' ' :: (operator.symbol.toList ++ [' '])), back, ?_, ?_⟩⟩
  · simp [text]
  · simp [text]
  · simp [String.length_toList]
    omega

/-- The nodes of what is read are those of what is written. -/
theorem listNodes_constructs (lies : written.LiesAt source offset) (parent : Option String) :
    Construct.listNodes parent (Expr.constructs source (written.expr offset)) =
      written.nodes parent offset := by
  induction written generalizing offset parent with
  | name identifier => rfl
  | paren inner ih =>
    have inside := ih lies.inner parent
    simpa [expr, Expr.constructs, Expr.attributes?, Expr.listConstructs, nodes] using inside
  | apply operator left right leftNodes rightNodes =>
    obtain ⟨leftLies, rightLies⟩ := lies.operands
    rw [expr, Expr.constructs, Expr.attributes?]
    simp [Construct.listNodes, Construct.nodes, Expr.listConstructs, Construct.listNodes_append,
      leftNodes leftLies, rightNodes rightLies, leftLies.slice_expr, rightLies.slice_expr, nodes,
      Attributes.kind]

/-! ## Declarations -/

/-- The declaration is read with the expression that is written. -/
theorem declarations_eq (reading : Reading) (proper : written.Proper) {fence : Token}
    (closed : fence.Closes) (depth : Nat) :
    Reading.declarations reading "const" (depth + 1) (some 0)
        ⟨written.declarationTokens.tail, fence⟩ =
      some ([reading.declaration "const" "v" none (some (written.expr 10))
          ⟨0, 10 + written.text.length⟩],
        ⟨[.inLine .punctuator ";" (10 + written.text.length)], fence⟩) := by
  have whole : Cursor.expression
      ⟨written.tokens 10 ++ [.inLine .punctuator ";" (10 + written.text.length)], fence⟩ =
      some (written.expr 10, ⟨[.inLine .punctuator ";" (10 + written.text.length)], fence⟩) :=
    read_whole closed rfl (read_binary closed proper written.precedence_pos (.closing rfl))
  have stop : (written.expr 10).stop = 10 + written.text.length := by rw [Expr.stop, span_expr]
  have type : Reading.declaredType (.inLine .identifier "v" 6)
      ⟨written.declarationTokens.tail.tail, fence⟩ =
      some (none, 7, ⟨written.declarationTokens.tail.tail, fence⟩) := rfl
  have value : Reading.initializer ⟨written.declarationTokens.tail.tail, fence⟩ =
      some (some (written.expr 10),
        ⟨[.inLine .punctuator ";" (10 + written.text.length)], fence⟩) := by
    exact congrArg (Option.map fun found => (some found.1, found.2)) whole
  have name : Cursor.expectIdentifier ⟨written.declarationTokens.tail, fence⟩ =
      some (.inLine .identifier "v" 6, ⟨written.declarationTokens.tail.tail, fence⟩) := rfl
  rw [Reading.declarations, descend, Reading.declarationStep, name]
  simp only [Option.bind_eq_bind, Option.bind_some, type, value]
  simp only [Option.map_some, Option.getD_some, stop]
  rfl

theorem topStatement_declaration (reading : Reading) (proper : written.Proper) {fence : Token}
    (closed : fence.Closes) :
    reading.topStatement ⟨written.declarationTokens, fence⟩ =
      some ([reading.declaration "const" "v" none (some (written.expr 10))
        ⟨0, 10 + written.text.length⟩], ⟨[], fence⟩) := by
  have statement : reading.topStatement ⟨written.declarationTokens, fence⟩ =
      reading.variableStatement 0 ⟨written.declarationTokens, fence⟩ := rfl
  have declared := declarations_eq reading proper closed written.declarationTokens.tail.length
  rw [statement, Reading.variableStatement]
  have keyword : (⟨written.declarationTokens, fence⟩ : Cursor).peek.value = "const" := rfl
  have size : (⟨written.declarationTokens, fence⟩ : Cursor).advance.size =
      written.declarationTokens.tail.length := rfl
  have inside : (⟨written.declarationTokens, fence⟩ : Cursor).advance =
      ⟨written.declarationTokens.tail, fence⟩ := rfl
  rw [keyword, size, inside, declared]
  rfl

/-- The made-up names of expressions look different from the declared one. -/
theorem declaration_eq (reading : Reading) (lies : written.LiesAt reading.source 10) (span : Span) :
    reading.declaration "const" "v" none (some (written.expr 10)) span =
      .mk (.variableDecl { name := "v", initializer := some written.text, keyword := "const" })
        span (Expr.constructs reading.source (written.expr 10)) := by
  have plain : Naming.generatedKind? "v" = none := by decide
  have kept (expr : Expr) : reading.reclassified? "v" expr span = none := by
    rw [Reading.reclassified?, plain]
    cases reading.reclassify <;> rfl
  simp [Reading.declaration, kept, Reading.text, lies.slice_expr]

end Written

/-- **Precedence.** An operation is read as it is written: the node of the variable is followed by
one node for each operator, in the order of the tree, below the node of the operator whose operand
it is; the operands are given as they are written, with their parentheses. -/
theorem parse_operation (reclassify : Bool) (operation : Operation) :
    parse reclassify ("const v = " ++ operation.written.text ++ ";") =
      .ok (
        let span : Span := ⟨0, 10 + operation.written.text.length⟩
        let id := nodeId span.start span.stop NodeKind.variableDecl.name
        let attributes : VariableAttributes :=
          { name := "v", initializer := some operation.written.text, keyword := "const" }
        { id, content := .typed (.variableDecl attributes), parent := none, span := some span } ::
          operation.written.nodes (some id) 10) := by
  have proper := operation.proper_written
  generalize operation.written = written at proper
  have lies : written.LiesAt written.declaration.toList 10 :=
    ⟨"const v = ".toList, [';'], by simp [Written.declaration], rfl⟩
  have closed : (Token.atEnd written.declaration.length false).Closes := .inr rfl
  have read := Written.topStatement_declaration ⟨written.declaration.toList, reclassify⟩ proper
    closed
  rw [Written.declaration_eq _ lies] at read
  have parsed := parse_single (List.cons_ne_nil _ _) written.tokenize_declaration read
  rw [Construct.nodes, written.listNodes_constructs lies] at parsed
  exact parsed

end SourceCanvas
