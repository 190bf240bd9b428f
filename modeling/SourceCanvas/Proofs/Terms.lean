import SourceCanvas.Proofs.Atoms
import SourceCanvas.Proofs.ConsoleTemplate
import SourceCanvas.Proofs.SynthesizedNames

/-!
# Written terms

The expressions that nodes stand for, with atoms as their parts (`Term`), and the values of
variables (`Initializer`) are read as what they are, up to the mark that ends a statement
(`Term.read_assignment`, `Initializer.read_assignment`). An opening angle bracket in an operation is
an operator there, as no list of type arguments is closed behind it. Under a name that tells the
kind of a term its expression is taken for one of this kind (`Term.reclassified?_expr`).
-/

namespace SourceCanvas

open Stroke (Legible Phrase Paired listed word sign space)

/-- A text without blanks has none to be trimmed. -/
theorem Text.trim_of_solid {text : List Char} (solid : ∀ c ∈ text, isBlank c = false) :
    trim text = text := by
  have start : trimStart text = text := by
    cases text with
    | nil => rfl
    | cons c rest => simp [trimStart, solid c (List.mem_cons_self ..)]
  have finish : ∀ text : List Char, (∀ c ∈ text, isBlank c = false) → trimEnd text = text := by
    intro text solid
    induction text with
    | nil => rfl
    | cons c rest ih =>
      obtain ⟨first, others⟩ := List.forall_mem_cons.mp solid
      rw [trimEnd, ih others]
      cases rest with
      | nil => simp [first]
      | cons d rest => rfl
  rw [trim, start, finish text solid]

/-! ## Items in braces -/

namespace Stroke

/-- Items in braces, with commas between them. -/
def inBraces : List (List Stroke) → List Stroke
  | [] => [.sign "\x7b", .sign "\x7d"]
  | first :: others => .sign "\x7b" :: space :: (listed (first :: others) ++ [space, .sign "\x7d"])

variable {α : Type} {strokes : α → List Stroke} {text : α → String}

theorem written_inBraces (written : ∀ item, Stroke.written (strokes item) = (text item).toList)
    (items : List α) :
    Stroke.written (inBraces (items.map strokes)) = (braced (items.map text)).toList := by
  cases items with
  | nil => simp [inBraces, braced]
  | cons first others =>
    have inside : Stroke.written (listed ((first :: others).map strokes)) =
        (", ".intercalate ((first :: others).map text)).toList := by
      simp [written_listed, String.toList_intercalate, Function.comp_def, written]
    simp only [List.map_cons, inBraces, braced, List.isEmpty_cons] at inside ⊢
    simp [written_append, inside]

/-- Items in braces are a phrase. -/
theorem phrase_inBraces (phrase : ∀ item, Phrase (strokes item)) (items : List α) :
    Phrase (inBraces (items.map strokes)) := by
  cases items with
  | nil =>
    exact ⟨fun ends => .single (by decide) (.single (by decide) trivial), ⟨'\x7b', _, rfl, rfl⟩,
      .empty (by decide) .nil, fun _ => rfl⟩
  | cons first others =>
    have inside := Phrase.listed phrase first others
    refine ⟨fun {after before} ends => ?_, ⟨'\x7b', _, rfl, rfl⟩, ?_, fun newline => ?_⟩
    · refine .single (by decide) (.space ?_ (Stroke.legible_append.mpr
        ⟨inside.legible (Lexer.chunk_cons_of_ends (by decide) _),
          .space rfl (.single (by decide) trivial)⟩))
      rw [Stroke.written_append, List.append_assoc]
      exact inside.head _
    · have whole : Paired (.sign "\x7b" ::
          ((space :: (listed ((first :: others).map strokes) ++ [space])) ++ [.sign "\x7d"])) :=
        .pair (by decide) (.plain rfl (inside.paired.append (.plain rfl .nil))) .nil
      simpa [inBraces] using whole
    · exact Stroke.breaks_append _ _ _ |>.trans rfl

end Stroke

open Stroke (inBraces)

/-! ## Terms -/

/-- An expression that a node can stand for, with atoms for operands. A call knows the names of the
parameters that the called function has; a value is shown on the console by a method, if the label
is the name of one. -/
inductive Term where
  | string (contents : String)
  | number (digits : Digits)
  | boolean (value : Bool)
  | operation (left : Atom) (symbol : Symbol) (right : Atom)
  | call (function : Atom) (args : List Atom) (expected : List String)
  | access (target : Atom) (property : PlainName)
  | choice (test whenTrue whenFalse : Atom)
  | object (entries : List Entry)
  | console (label : String) (value : Atom)

namespace Term

open Expr (read read_eq)
open Template (method shown)

/-- The text of a string. -/
def quoted (contents : String) : String := Text.quote contents

/-- The text of a term. -/
def text : Term → String
  | .string contents => quoted contents
  | .number digits => digits.text
  | .boolean value => if value then "true" else "false"
  | .operation left symbol right => left.text ++ " " ++ symbol.text ++ " " ++ right.text
  | .call function args _ => function.text ++ "(" ++ ", ".intercalate (args.map Atom.text) ++ ")"
  | .access target property => "(" ++ target.text ++ ")." ++ property.text
  | .choice test whenTrue whenFalse =>
    test.text ++ " ? " ++ whenTrue.text ++ " : " ++ whenFalse.text
  | .object entries => braced (entries.map Entry.text)
  | .console label value => shown label value.text

/-- The strokes of the statements that show an atom on the console and give it back. -/
def statements (label : String) (value : Atom) : List Stroke :=
  space :: word "console" :: .sign "." :: word (method label) :: .sign "(" ::
    (value.strokes ++ .sign ")" :: .sign ";" :: space :: word "return" :: space ::
      (value.strokes ++ [.sign ";", space]))

/-- The strokes of the function of these statements. -/
def arrow (label : String) (value : Atom) : List Stroke :=
  .sign "(" :: .sign ")" :: space :: .sign "=>" :: space :: .sign "\x7b" ::
    (statements label value ++ [.sign "\x7d"])

/-- The strokes of the call of this function. -/
def shownStrokes (label : String) (value : Atom) : List Stroke :=
  .sign "(" :: (arrow label value ++ [.sign ")", .sign "(", .sign ")"])

/-- The strokes of a term. -/
def strokes : Term → List Stroke
  | .string contents => [.lexeme .string (quoted contents)]
  | .number digits => [.lexeme .number digits.text]
  | .boolean value => [word (if value then "true" else "false")]
  | .operation left symbol right =>
    left.strokes ++ space :: symbol.stroke :: space :: right.strokes
  | .call function args _ =>
    function.strokes ++ .sign "(" :: (listed (args.map Atom.strokes) ++ [.sign ")"])
  | .access target property =>
    .sign "(" :: (target.strokes ++ [.sign ")", .sign ".", word property.text])
  | .choice test whenTrue whenFalse =>
    test.strokes ++ space :: .sign "?" :: space ::
      (whenTrue.strokes ++ space :: .sign ":" :: space :: whenFalse.strokes)
  | .object entries => inBraces (entries.map Entry.strokes)
  | .console label value => shownStrokes label value

variable {newline before : Bool} {offset : Nat} {after : List Char} {token fence : Token}
  {rest : List Token}

/-- The strokes of a term are its text. -/
theorem written_strokes (term : Term) : Stroke.written term.strokes = term.text.toList := by
  have atoms (args : List Atom) : Stroke.written (listed (args.map Atom.strokes)) =
      (", ".intercalate (args.map Atom.text)).toList := by
    simp [Stroke.written_listed, String.toList_intercalate, Function.comp_def, Atom.written_strokes]
  cases term with
  | string contents =>
    rw [strokes, text, Stroke.written_lexeme, Stroke.written_nil, List.append_nil]
  | number digits => simp [strokes, text]
  | boolean value => simp [strokes, text]
  | operation | choice | access =>
    simp [strokes, text, Stroke.written_append, Atom.written_strokes, Symbol.stroke]
  | console label value =>
    rw [strokes, text]
    unfold shown
    simp [shownStrokes, arrow, statements, Stroke.written_append, Atom.written_strokes]
  | call function args =>
    simp [strokes, text, Stroke.written_append, Atom.written_strokes, atoms]
  | object entries => exact Stroke.written_inBraces Entry.written_strokes entries

theorem whole_method (label : String) : Lexer.isWhole (method label).toList = true := by
  have whole : ∀ name ∈ consoleMethods, Lexer.isWhole name.toList = true := by decide
  exact whole _ (Template.mem_method label)

theorem legible_statements (label : String) (value : Atom) :
    Legible ('\x7d' :: after) before (statements label value) := by
  have phrase := value.phrase
  have tail : Legible ('\x7d' :: after) false (.sign ")" :: .sign ";" :: space :: word "return" ::
      space :: (value.strokes ++ [.sign ";", space])) := by
    refine .single (by decide) (.single (by decide) (.space rfl (.word rfl rfl (.space ?_
      (Stroke.legible_append.mpr ⟨phrase.legible (Lexer.chunk_cons_of_ends (by decide) _), ?_⟩)))))
    · rw [Stroke.written_append, List.append_assoc]
      exact phrase.head _
    · exact .single (by decide) (.space rfl trivial)
  refine .space rfl (.word rfl rfl ⟨Lexer.startsWith_point ?_, .word (whole_method label) rfl
    (.single (by decide) (Stroke.legible_append.mpr
      ⟨phrase.legible (Lexer.chunk_cons_of_ends (by decide) _), ?_⟩))⟩)
  · rw [Stroke.written_lexeme, List.append_assoc]
    exact Lexer.head_startsWord (whole_method label) _
  · rw [value.allowed_strokes]
    exact tail

theorem legible_arrow (label : String) (value : Atom) :
    Legible (')' :: after) before (arrow label value) :=
  .single (by decide) (.single (by decide) (.space rfl
    (.sign (by decide) (.inl (Lexer.chunk_cons_of_ends (by decide) _)) (.space rfl
      (.single (by decide) (Stroke.legible_append.mpr
        ⟨legible_statements label value, .single (by decide) trivial⟩))))))

theorem paired_statements (label : String) (value : Atom) : Paired (statements label value) :=
  .plain rfl (.plain rfl (.plain rfl (.plain rfl (.pair (by decide) value.phrase.paired
    (.plain rfl (.plain rfl (.plain rfl (.plain rfl
      (value.phrase.paired.append (.plain rfl (.plain rfl .nil)))))))))))

theorem paired_arrow (label : String) (value : Atom) : Paired (arrow label value) :=
  .empty (by decide) (.plain rfl (.plain rfl (.plain rfl
    (.pair (by decide) (paired_statements label value) .nil))))

theorem breaks_statements (label : String) (value : Atom) :
    Stroke.breaks false (statements label value) = false :=
  (Stroke.breaks_append false value.strokes _).trans
    ((Stroke.breaks_append false value.strokes [.sign ";", space]).trans rfl)

theorem breaks_arrow (label : String) (value : Atom) :
    Stroke.breaks false (arrow label value) = false :=
  (Stroke.breaks_append false (statements label value) [.sign "\x7d"]).trans rfl

/-- A term is a phrase. -/
theorem phrase (term : Term) : Phrase term.strokes := by
  cases term with
  | string contents =>
    have quoted : (quoted contents).toList =
        Text.quoteChars contents.toList := String.toList_ofList
    refine ⟨fun ends => ⟨?_, trivial⟩, ⟨'"', Text.escape contents.toList ++ ['"'], ?_, rfl⟩,
      .plain rfl .nil, fun _ => rfl⟩
    · rw [quoted]
      exact Lexer.startsWith_quote contents.toList
    · rw [strokes, Stroke.written_lexeme, quoted, Stroke.written_nil, List.append_nil]
      rfl
  | number digits => exact (Atom.number digits).phrase
  | boolean value =>
    cases value
    · exact ⟨fun ends => .word rfl (Lexer.head_not_continuesWord ends) trivial,
        ⟨'f', _, rfl, rfl⟩, .plain rfl .nil, fun _ => rfl⟩
    · exact ⟨fun ends => .word rfl (Lexer.head_not_continuesWord ends) trivial,
        ⟨'t', _, rfl, rfl⟩, .plain rfl .nil, fun _ => rfl⟩
  | operation left symbol right =>
    refine ⟨fun {after before} ends => ?_, left.phrase.solid_append _, ?_, fun newline => ?_⟩
    · refine Stroke.legible_append.mpr
        ⟨left.phrase.legible (Lexer.chunk_cons_of_ends (by decide) _), ?_⟩
      rw [left.allowed_strokes]
      have solid : (Stroke.written (symbol.stroke :: space :: right.strokes) ++ after).head?.any
          Lexer.isSpace = false := by
        rw [Symbol.stroke, Stroke.written_lexeme, List.append_assoc]
        exact symbol.solid _
      exact .space solid ⟨symbol.startsWith _, .space (right.phrase.head _)
        (right.phrase.legible ends)⟩
    · exact left.phrase.paired.append
        (.plain rfl (.plain symbol.isBracket_stroke (.plain rfl right.phrase.paired)))
    · rw [strokes, Stroke.breaks_append]
      exact right.phrase.unbroken _
  | call function args expected =>
    refine ⟨fun {after before} ends => ?_, function.phrase.solid_append _, ?_, fun newline => ?_⟩
    · refine Stroke.legible_append.mpr
        ⟨function.phrase.legible (Lexer.chunk_cons_of_ends (by decide) _), ?_⟩
      exact .single (by decide) (Stroke.legible_append.mpr
        ⟨Stroke.legible_listed Atom.phrase args (Lexer.chunk_cons_of_ends (by decide) _),
          .single (by decide) trivial⟩)
    · exact function.phrase.paired.append
        (.pair (by decide) (Stroke.paired_listed Atom.phrase args) .nil)
    · rw [strokes, Stroke.breaks_append]
      exact Stroke.breaks_append _ _ _ |>.trans rfl
  | access target property =>
    refine ⟨fun {after before} ends => ?_, ⟨'(', _, rfl, rfl⟩,
      .pair (by decide) target.phrase.paired (.plain rfl (.plain rfl .nil)), fun newline => ?_⟩
    · refine .single (by decide) (Stroke.legible_append.mpr
        ⟨target.phrase.legible (Lexer.chunk_cons_of_ends (by decide) _), ?_⟩)
      refine .single (by decide) ⟨Lexer.startsWith_point ?_, property.phrase.legible ends⟩
      rw [Stroke.written_lexeme, List.append_assoc]
      exact property.startsWord _
    · exact Stroke.breaks_append _ _ _ |>.trans rfl
  | choice test whenTrue whenFalse =>
    refine ⟨fun {after before} ends => ?_, test.phrase.solid_append _, ?_, fun newline => ?_⟩
    · refine Stroke.legible_append.mpr
        ⟨test.phrase.legible (Lexer.chunk_cons_of_ends (by decide) _), ?_⟩
      refine .space rfl (.sign (by decide) (.inl (Lexer.chunk_cons_of_ends (by decide) _))
        (.space ?_ (Stroke.legible_append.mpr
          ⟨whenTrue.phrase.legible (Lexer.chunk_cons_of_ends (by decide) _),
            .space rfl (.single (by decide) (.space (whenFalse.phrase.head _)
              (whenFalse.phrase.legible ends)))⟩)))
      rw [Stroke.written_append, List.append_assoc]
      exact whenTrue.phrase.head _
    · exact test.phrase.paired.append (.plain rfl (.plain rfl (.plain rfl
        (whenTrue.phrase.paired.append (.plain rfl (.plain rfl (.plain rfl
          whenFalse.phrase.paired)))))))
    · rw [strokes, Stroke.breaks_append]
      refine (Stroke.breaks_append _ _ _).trans ?_
      exact whenFalse.phrase.unbroken _
  | object entries => exact Stroke.phrase_inBraces Entry.phrase entries
  | console label value =>
    refine ⟨fun {after before} ends => ?_, ⟨'(', _, rfl, rfl⟩,
      .pair (by decide) (paired_arrow label value) (.empty (by decide) .nil), fun newline => ?_⟩
    · exact .single (by decide) (Stroke.legible_append.mpr ⟨legible_arrow label value,
        .single (by decide) (.single (by decide) (.single (by decide) trivial))⟩)
    · exact (Stroke.breaks_append _ _ _).trans rfl

/-! ### How terms are read -/

/-- The expression that is written at an offset. -/
def expr (term : Term) (offset : Nat) : Expr :=
  let span : Span := ⟨offset, offset + term.text.toList.length⟩
  match term with
  | .string _ => .mk (.literal .string) span []
  | .number _ => .mk (.literal .number) span []
  | .boolean _ => .mk (.literal .boolean) span []
  | .operation left symbol right =>
    .mk (.binary symbol.text) span
      [left.expr offset,
        right.expr (offset + left.text.toList.length + 1 + symbol.text.toList.length + 1)]
  | .call function args _ =>
    .mk .call span
      (function.expr offset :: Atom.exprs args (offset + function.text.toList.length + 1))
  | .access target property =>
    .mk (.member property.text) span
      [.mk .paren ⟨offset, offset + 1 + target.text.toList.length + 1⟩ [target.expr (offset + 1)]]
  | .choice test whenTrue whenFalse =>
    .mk .conditional span
      [test.expr offset, whenTrue.expr (offset + test.text.toList.length + 3),
        whenFalse.expr
          (offset + test.text.toList.length + 3 + whenTrue.text.toList.length + 3)]
  | .object entries =>
    .mk (.object (Entry.properties entries (offset + 2))) span (Entry.values entries (offset + 2))
  | .console label value =>
    .mk .call span
      [.mk .paren ⟨offset, offset + 1 + (Stroke.written (arrow label value)).length + 1⟩
        [.mk .other ⟨offset + 1, offset + 1 + (Stroke.written (arrow label value)).length⟩ []]]

theorem span_expr (term : Term) (offset : Nat) :
    (term.expr offset).span = ⟨offset, offset + term.text.toList.length⟩ := by
  cases term <;> rfl

/-- A token with a kind of its own is a whole expression before what ends it. -/
theorem read_leaf {literal : Token} {form : Form} (closed : fence.Closes)
    (closes : token.isPunctIn Expr.closers = true) (starts : Expr.Starts literal)
    (arrow : (⟨literal :: token :: rest, fence⟩ : Cursor).atArrow = false)
    (primary : read .primary ⟨literal :: token :: rest, fence⟩ =
      some (.leaf form literal, ⟨token :: rest, fence⟩)) :
    read .assignment ⟨literal :: token :: rest, fence⟩ =
      some (.leaf form literal, ⟨token :: rest, fence⟩) :=
  Expr.read_simple starts closed closed arrow closes
    (Expr.callMember_primary closed starts.other primary)

/-- The function that shows a value is read without looking into its body. -/
theorem read_arrow (label : String) (value : Atom) (offset : Nat) (closed : fence.Closes)
    (behind : List Token) :
    read .assignment ⟨Stroke.tokens false offset (arrow label value) ++ behind, fence⟩ =
      some (.mk .other ⟨offset, offset + (Stroke.written (arrow label value)).length⟩ [],
        ⟨behind, fence⟩) := by
  let opener : Token := ⟨.punctuator, "(", ⟨offset, offset + 1⟩, false⟩
  let closer : Token := ⟨.punctuator, ")", ⟨offset + 1, offset + 2⟩, false⟩
  let mark : Token := ⟨.punctuator, "=>", ⟨offset + 3, offset + 5⟩, false⟩
  let brace : Token := ⟨.punctuator, "\x7b", ⟨offset + 6, offset + 7⟩, false⟩
  let past := offset + 7 + (Stroke.written (statements label value)).length
  let closer' : Token := ⟨.punctuator, "\x7d", ⟨past, past + 1⟩, false⟩
  have parts : Stroke.tokens false offset (arrow label value) ++ behind =
      opener :: closer :: mark :: brace ::
        (Stroke.tokens false (offset + 7) (statements label value) ++ closer' :: behind) := by
    simp only [arrow, Stroke.tokens, Stroke.tokens_space, Stroke.tokens_append, breaks_statements,
      List.cons_append, List.append_assoc]
    rfl
  have pairs : Lexer.Pairs opener closer := ⟨rfl, rfl, rfl⟩
  have pairs' : Lexer.Pairs brace closer' := ⟨rfl, rfl, rfl⟩
  have parameters := pairs.balanced .nil (mark :: brace ::
    (Stroke.tokens false (offset + 7) (statements label value) ++ closer' :: behind)) fence
  have body := pairs'.balanced ((paired_statements label value).balanced false (offset + 7)) behind
    fence
  have place : past + 1 = offset + (Stroke.written (arrow label value)).length := by
    simp [past, arrow, Stroke.written_append]
    omega
  rw [parts, ← place]
  exact Expr.read_arrow closed rfl rfl rfl parameters body

/-- **A term is read** as its expression, before what ends it. -/
theorem read_assignment (term : Term) (closed : fence.Closes)
    (closes : token.isPunctIn Expr.closers = true) (unclosed : Unclosed (token :: rest)) :
    read .assignment ⟨Stroke.tokens false offset term.strokes ++ token :: rest, fence⟩ =
      some (term.expr offset, ⟨token :: rest, fence⟩) := by
  cases term with
  | string contents =>
    refine read_leaf closed closes ⟨rfl, rfl, rfl, rfl⟩ rfl ?_
    rw [read_eq closed]
    rfl
  | number digits => exact (Atom.number digits).read_assignment closed closes
  | boolean value =>
    have arrow : token.isPunct "=>" = false := Expr.isPunct_of_closer closes (by decide)
    cases value
    · refine read_leaf closed closes ⟨rfl, rfl, rfl, rfl⟩
        (Expr.atArrow_name rfl rfl arrow) ?_
      rw [read_eq closed]
      rfl
    · refine read_leaf closed closes ⟨rfl, rfl, rfl, rfl⟩
        (Expr.atArrow_name rfl rfl arrow) ?_
      rw [read_eq closed]
      rfl
  | operation left symbol right =>
    have behind : Unclosed (Stroke.tokens false
        (offset + left.text.toList.length + 1 + symbol.text.toList.length + 1) right.strokes ++
          token :: rest) := right.unclosed unclosed
    have rightRead (least offset : Nat) :
        read (.binary least) ⟨Stroke.tokens false offset right.strokes ++ token :: rest, fence⟩ =
          some (right.expr offset, ⟨token :: rest, fence⟩) :=
      (right.read_binary closed (Expr.detached_of_closer closes)).trans
        (Expr.binaryTail_closer closes closed)
    have span : (⟨(left.expr offset).start, (right.expr (offset + left.text.toList.length + 1 +
          symbol.text.toList.length + 1)).stop⟩ : Span) =
        ⟨offset, offset + (operation left symbol right).text.toList.length⟩ := by
      simp [Expr.start, Expr.stop, Atom.span_expr, text]
      omega
    obtain ⟨precedence, positive, known⟩ := symbol.exists_precedence
      ⟨offset + left.text.toList.length + 1, _⟩ false
    rw [strokes, Stroke.tokens_append, left.phrase.unbroken, left.written_strokes,
      Stroke.tokens_space, Symbol.stroke, Stroke.tokens, Stroke.tokens_space, List.append_assoc,
      List.cons_append]
    refine Expr.read_closed closed closed (left.atArrow symbol.other.1) closes
      ((left.read_binary closed (symbol.detached behind)).trans ?_)
    rw [Expr.read_operator closed symbol.other.2 known positive (rightRead _ _), span]
    rfl
  | call function args expected =>
    have place : offset + function.text.toList.length + 1 +
        (Stroke.written (listed (args.map Atom.strokes))).length + 1 =
        offset + (call function args expected).text.toList.length := by
      rw [← written_strokes]
      simp [strokes, Stroke.written_append, function.written_strokes]
      omega
    have inside (closer : Token) (closes : closer.isPunct ")" = true) :
        read .argumentTail ⟨Stroke.tokens false (offset + function.text.toList.length + 1)
            (listed (args.map Atom.strokes)) ++ closer :: token :: rest, fence⟩ =
          some (Atom.exprs args (offset + function.text.toList.length + 1),
            ⟨closer :: token :: rest, fence⟩) :=
      Atom.read_arguments args _ closed closes
    have same : Expr.mk .call ⟨(function.expr offset).start, offset + function.text.toList.length +
          1 + (Stroke.written (listed (args.map Atom.strokes))).length + 1⟩
        (function.expr offset :: Atom.exprs args (offset + function.text.toList.length + 1)) =
          (call function args expected).expr offset := by
      rw [Expr.start, function.span_expr, place]
      rfl
    rw [strokes, Stroke.tokens_append, function.phrase.unbroken, function.written_strokes,
      Stroke.tokens, Stroke.tokens_append, List.append_assoc, List.cons_append, List.append_assoc]
    refine Expr.read_simple function.starts closed closed (function.atArrow rfl) closes
      ((function.read_callMember closed).trans
        ((Expr.read_call closed rfl rfl (inside _ rfl)).trans ?_))
    rw [← same]
    rfl
  | access target property =>
    let opener : Token := ⟨.punctuator, "(", ⟨offset, offset + 1⟩, false⟩
    let past := offset + 1 + target.text.toList.length
    let closer : Token := ⟨.punctuator, ")", ⟨past, past + 1⟩, false⟩
    let point : Token := ⟨.punctuator, ".", ⟨past + 1, past + 2⟩, false⟩
    let name : Token := ⟨.identifier, property.text,
      ⟨past + 2, past + 2 + property.text.toList.length⟩, false⟩
    have parts : Stroke.tokens false offset (access target property).strokes ++ token :: rest =
        opener :: (Stroke.tokens false (offset + 1) target.strokes ++
          closer :: point :: name :: token :: rest) := by
      rw [strokes, Stroke.tokens, Stroke.tokens_append, target.phrase.unbroken,
        target.written_strokes, List.cons_append, List.append_assoc]
      rfl
    have pairs : Lexer.Pairs opener closer := ⟨rfl, rfl, rfl⟩
    have enclosed := pairs.balanced (target.phrase.paired.balanced false (offset + 1))
      (point :: name :: token :: rest) fence
    have inside : read .assignment ⟨Stroke.tokens false (offset + 1) target.strokes ++
          closer :: point :: name :: token :: rest, fence⟩ =
        some (target.expr (offset + 1), ⟨closer :: point :: name :: token :: rest, fence⟩) :=
      target.read_assignment closed rfl
    have paren : read .primary ⟨opener :: (Stroke.tokens false (offset + 1) target.strokes ++
          closer :: point :: name :: token :: rest), fence⟩ =
        some (.mk .paren ⟨offset, past + 1⟩ [target.expr (offset + 1)],
          ⟨point :: name :: token :: rest, fence⟩) :=
      Expr.read_paren closed rfl rfl inside
    have place : past + 2 + property.text.toList.length =
        offset + (access target property).text.toList.length := by
      simp [past, text]
      omega
    have same : Expr.mk (.member property.text) ⟨offset, past + 2 + property.text.toList.length⟩
        [.mk .paren ⟨offset, past + 1⟩ [target.expr (offset + 1)]] =
          (access target property).expr offset := by
      rw [place]
      rfl
    rw [parts]
    refine Expr.read_simple ⟨rfl, rfl, rfl, rfl⟩ closed closed
      (Expr.atArrow_paren rfl enclosed rfl rfl) closes
      ((Expr.callMember_primary closed rfl paren).trans
        ((Expr.read_access closed rfl rfl).trans ?_))
    rw [← same]
    rfl
  | choice test whenTrue whenFalse =>
    have span : (⟨(test.expr offset).start, (whenFalse.expr (offset + test.text.toList.length + 3 +
          whenTrue.text.toList.length + 3)).stop⟩ : Span) =
        ⟨offset, offset + (choice test whenTrue whenFalse).text.toList.length⟩ := by
      simp [Expr.start, Expr.stop, Atom.span_expr, text]
      omega
    rw [strokes, Stroke.tokens_append, test.phrase.unbroken, test.written_strokes,
      Stroke.tokens_space, Stroke.tokens, Stroke.tokens_space, Stroke.tokens_append,
      whenTrue.phrase.unbroken, whenTrue.written_strokes, Stroke.tokens_space, Stroke.tokens,
      Stroke.tokens_space, List.append_assoc, List.cons_append, List.append_assoc, List.cons_append]
    refine (Expr.read_choice closed closed (test.atArrow rfl) rfl rfl closes
      (test.read_binary closed ?_) (whenTrue.read_assignment closed rfl)
      (whenFalse.read_assignment closed closes)).trans ?_
    · refine ⟨rfl, ?_, ?_⟩ <;> (intro same; cases same)
    · have same : Expr.mk .conditional ⟨(test.expr offset).start, (whenFalse.expr (offset +
            test.text.toList.length + 3 + whenTrue.text.toList.length + 3)).stop⟩
          [test.expr offset, whenTrue.expr (offset + test.text.toList.length + 3),
            whenFalse.expr
              (offset + test.text.toList.length + 3 + whenTrue.text.toList.length + 3)] =
          (choice test whenTrue whenFalse).expr offset := by
        rw [span]
        rfl
      rw [← same]
      rfl
  | object entries =>
    let opener : Token := ⟨.punctuator, "\x7b", ⟨offset, offset + 1⟩, false⟩
    have whole (inside : List Token) (closer : Token) (ends : closer.isPunct "\x7d" = true)
        (place : closer.stop = offset + (object entries).text.toList.length)
        (found : read .objectTail ⟨inside, fence⟩ =
          some ((Entry.properties entries (offset + 2), Entry.values entries (offset + 2)),
            ⟨closer :: token :: rest, fence⟩)) :
        read .assignment ⟨opener :: inside, fence⟩ =
          some ((object entries).expr offset, ⟨token :: rest, fence⟩) := by
      have primary : read .primary ⟨opener :: inside, fence⟩ =
          some ((object entries).expr offset, ⟨token :: rest, fence⟩) := by
        rw [read_eq closed, Expr.step, Expr.primary]
        simp [opener, Cursor.peek, Cursor.advance, found, Cursor.expectPunct, ends, place, expr,
          Token.start]
      exact Expr.read_simple ⟨rfl, rfl, rfl, rfl⟩ closed closed rfl closes
        (Expr.callMember_primary closed rfl primary)
    cases entries with
    | nil => exact whole _ _ rfl rfl (Entry.read_entries [] (offset + 2) closed rfl)
    | cons first others =>
      have inner := (Phrase.listed Entry.phrase first others).unbroken false
      have place : offset + 1 + 1 +
          (Stroke.written (listed ((first :: others).map Entry.strokes))).length + 1 + 1 =
          offset + (object (first :: others)).text.toList.length := by
        rw [← written_strokes]
        simp [strokes, inBraces, Stroke.written_append]
        omega
      rw [strokes, List.map_cons, inBraces, ← List.map_cons, Stroke.tokens, Stroke.tokens_space,
        Stroke.tokens_append, Stroke.tokens_space, inner, List.cons_append, List.append_assoc]
      exact whole _ ⟨.punctuator, "\x7d", ⟨_, _⟩, false⟩ rfl place
        (Entry.read_entries (first :: others) (offset + 2) closed rfl)
  | console label value =>
    obtain ⟨past, ends⟩ : ∃ past, past = offset + 1 + (Stroke.written (arrow label value)).length :=
      ⟨_, rfl⟩
    let opener : Token := ⟨.punctuator, "(", ⟨offset, offset + 1⟩, false⟩
    let closer : Token := ⟨.punctuator, ")", ⟨past, past + 1⟩, false⟩
    let opener' : Token := ⟨.punctuator, "(", ⟨past + 1, past + 2⟩, false⟩
    let closer' : Token := ⟨.punctuator, ")", ⟨past + 2, past + 3⟩, false⟩
    have parts : Stroke.tokens false offset (console label value).strokes ++ token :: rest =
        opener :: (Stroke.tokens false (offset + 1) (arrow label value) ++
          closer :: opener' :: closer' :: token :: rest) := by
      have one : "(".toList.length = 1 := rfl
      rw [strokes, shownStrokes, Stroke.tokens, Stroke.tokens_append, breaks_arrow,
        List.cons_append, List.append_assoc, one, ← ends]
      rfl
    have inside : read .assignment ⟨Stroke.tokens false (offset + 1) (arrow label value) ++
          closer :: opener' :: closer' :: token :: rest, fence⟩ =
        some (.mk .other ⟨offset + 1, past⟩ [],
          ⟨closer :: opener' :: closer' :: token :: rest, fence⟩) := by
      rw [read_arrow label value (offset + 1) closed, ← ends]
    have pairs : Lexer.Pairs opener closer := ⟨rfl, rfl, rfl⟩
    have enclosed := pairs.balanced ((paired_arrow label value).balanced false (offset + 1))
      (opener' :: closer' :: token :: rest) fence
    have paren : read .primary ⟨opener :: (Stroke.tokens false (offset + 1) (arrow label value) ++
          closer :: opener' :: closer' :: token :: rest), fence⟩ =
        some (.mk .paren ⟨offset, past + 1⟩ [.mk .other ⟨offset + 1, past⟩ []],
          ⟨opener' :: closer' :: token :: rest, fence⟩) :=
      Expr.read_paren closed rfl rfl inside
    have place : past + 3 = offset + (console label value).text.toList.length := by
      rw [← written_strokes]
      simp [ends, strokes, shownStrokes, Stroke.written_append]
      omega
    have same : Expr.mk .call ⟨offset, past + 3⟩
        [.mk .paren ⟨offset, past + 1⟩ [.mk .other ⟨offset + 1, past⟩ []]] =
          (console label value).expr offset := by
      rw [expr, ← place, ← ends]
    rw [parts]
    refine Expr.read_simple ⟨rfl, rfl, rfl, rfl⟩ closed closed
      (Expr.atArrow_paren rfl enclosed rfl rfl) closes
      ((Expr.callMember_primary closed rfl paren).trans
        ((Expr.read_call closed rfl rfl (Expr.argumentTail_closer closed rfl)).trans ?_))
    rw [← same]
    rfl

/-! ### What terms stand for -/

variable {source : List Char}

/-- The attributes of a node that stands for a term. -/
def attributes : Term → Attributes
  | .string contents => .literal { value := contents, kind := .string }
  | .number digits => .literal { value := digits.text, kind := .number }
  | .boolean value => .literal { value := if value then "true" else "false", kind := .boolean }
  | .operation left symbol right =>
    .binaryOp { operator := symbol.text, left := some left.text, right := some right.text }
  | .call function args expected =>
    .call { function := some function.text, args := args.map Atom.text, expected }
  | .access target property =>
    .propertyAccess { object := some target.text, property := property.text }
  | .choice test whenTrue whenFalse =>
    .conditional
      { test := some test.text, whenTrue := some whenTrue.text, whenFalse := some whenFalse.text }
  | .object entries => .object { properties := entries.map Entry.property }
  | .console label value => .console { value := some value.text, label }

/-- The attributes that are found in the text of a term. -/
def found : Term → Attributes
  | .string contents =>
    .literal { value := Text.unquote (quoted contents), kind := .string }
  | .call function args _ =>
    .call { function := some function.text, args := args.map Atom.text }
  | .console label value => .console { value := some value.text, label := method label }
  | term => term.attributes

theorem kind_found (term : Term) : term.found.kind = term.attributes.kind := by
  cases term <;> simp only [found, attributes, Attributes.kind]

/-- The properties of an object have their texts. -/
theorem slices_object {entries : List Entry}
    (stands : StandsAt source offset (object entries).text.toList) :
    (Entry.properties entries (offset + 2)).map (fun (key, value) =>
      ({ key, value := value.map fun span => span.slice source } : Property)) =
        entries.map Entry.property := by
  cases entries with
  | nil => rfl
  | cons first others =>
    have parts : (object (first :: others)).text.toList = ['\x7b', ' '] ++
        (Stroke.written (listed ((first :: others).map Entry.strokes)) ++ [' ', '\x7d']) := by
      rw [← written_strokes]
      simp [strokes, inBraces, Stroke.written_append]
    exact Entry.slices_properties _ _ (stands.within _ _ parts rfl)

/-- The expression of a term has its attributes, unless it is shown on the console. -/
theorem attributes?_expr (term : Term) (stands : StandsAt source offset term.text.toList)
    (other : term.attributes.kind ≠ .console) :
    (term.expr offset).unwrap.attributes? source = some term.found := by
  cases term with
  | string contents =>
    have slice := stands.slice_text
    simp only [text] at slice
    simp only [expr, Expr.unwrap, Expr.attributes?, slice, found, text]
  | number digits =>
    have slice := stands.slice_text
    simp only [text] at slice
    simp only [expr, Expr.unwrap, Expr.attributes?, slice, found, attributes, text]
  | boolean value =>
    have slice := stands.slice_text
    simp only [text] at slice
    simp only [expr, Expr.unwrap, Expr.attributes?, slice, found, attributes, text]
  | operation left symbol right =>
    have leftStands : StandsAt source offset left.text.toList :=
      stands.within ([]) (' ' :: (symbol.text.toList ++ ' ' :: right.text.toList))
        (by simp [text]) rfl
    have rightStands : StandsAt source
        (offset + left.text.toList.length + 1 + symbol.text.toList.length + 1) right.text.toList :=
      stands.within (left.text.toList ++ ' ' :: (symbol.text.toList ++ [' '])) ([])
        (by simp [text]) (by simp; omega)
    simp only [expr, Expr.unwrap, Expr.attributes?, left.slice_expr leftStands,
      right.slice_expr rightStands, found, attributes]
  | call function args expected =>
    have parts : (call function args expected).text.toList = function.text.toList ++
        '(' :: (Stroke.written (listed (args.map Atom.strokes)) ++ [')']) := by
      rw [← written_strokes]
      simp [strokes, Stroke.written_append, function.written_strokes]
    have functionStands : StandsAt source offset function.text.toList :=
      stands.within [] _ parts rfl
    have argsStands : StandsAt source (offset + function.text.toList.length + 1)
        (Stroke.written (listed (args.map Atom.strokes))) :=
      stands.within (function.text.toList ++ ['(']) [')'] (by simp [parts]) (by simp; omega)
    have slices := Atom.slices_exprs args _ argsStands
    simp only [expr, Expr.unwrap, Expr.attributes?, function.slice_expr functionStands, slices,
      found]
  | access target property =>
    have inside : StandsAt source (offset + 1) target.text.toList :=
      stands.within ['('] (')' :: '.' :: property.text.toList) (by simp [text]) rfl
    have plain : (target.expr (offset + 1)).unwrap = target.expr (offset + 1) := by
      cases target <;> rfl
    simp only [expr, Expr.unwrap, Expr.attributes?, plain, target.slice_expr inside, found,
      attributes]
  | choice test whenTrue whenFalse =>
    have testStands : StandsAt source offset test.text.toList :=
      stands.within [] (" ? ".toList ++ whenTrue.text.toList ++ " : ".toList ++
        whenFalse.text.toList) (by simp [text]) rfl
    have trueStands : StandsAt source (offset + test.text.toList.length + 3)
        whenTrue.text.toList :=
      stands.within (test.text.toList ++ " ? ".toList) (" : ".toList ++ whenFalse.text.toList)
        (by simp [text]) (by simp; omega)
    have falseStands : StandsAt source (offset + test.text.toList.length + 3 +
        whenTrue.text.toList.length + 3) whenFalse.text.toList :=
      stands.within (test.text.toList ++ " ? ".toList ++ whenTrue.text.toList ++ " : ".toList) []
        (by simp [text]) (by simp; omega)
    simp only [expr, Expr.unwrap, Expr.attributes?, test.slice_expr testStands,
      whenTrue.slice_expr trueStands, whenFalse.slice_expr falseStands, found, attributes]
  | object entries =>
    have slices := slices_object stands
    simp only [expr, Expr.unwrap, Expr.attributes?, slices, found, attributes]
  | console label value => exact absurd rfl other

/-- **A term is found again** under a name that tells its kind. -/
theorem reclassified?_expr (reading : Reading) (on : reading.reclassify = true) (term : Term)
    (stands : StandsAt reading.source offset term.text.toList) {name : String}
    (kind : Naming.generatedKind? name = some term.attributes.kind) (span : Span) :
    ∃ children, reading.reclassified? name (term.expr offset) span =
      some (.mk (term.found.withName name) span children) := by
  by_cases other : term.attributes.kind = .console
  · cases term with
    | console label value =>
      have slice : reading.text ((console label value).expr offset).span =
          shown label value.text := by
        rw [span_expr]
        exact stands.slice_text
      have trimmed := Text.trim_of_solid value.not_isBlank
      refine ⟨[], ?_⟩
      simp [Reading.reclassified?, on, kind, other, slice, Template.console?_shown, trimmed, found,
        Attributes.withName]
    | _ => cases other
  · have found := term.attributes?_expr stands other
    refine ⟨Expr.listConstructs reading.source (term.expr offset).unwrap.parts, ?_⟩
    simp [Reading.reclassified?, on, kind, other, found, term.kind_found]

end Term

/-! ## Values of variables -/

/-- What is given to a variable: an atom, a name in another one, or a term. -/
inductive Initializer where
  | simple (atom : Atom)
  | point (target property : PlainName)
  | composed (term : Term)

namespace Initializer

open Expr (read read_eq)

/-- The text of a value. -/
def text : Initializer → String
  | .simple atom => atom.text
  | .point target property => target.text ++ "." ++ property.text
  | .composed term => term.text

/-- The strokes of a value. -/
def strokes : Initializer → List Stroke
  | .simple atom => atom.strokes
  | .point target property => [word target.text, .sign ".", word property.text]
  | .composed term => term.strokes

/-- The expression that is written at an offset. -/
def expr (value : Initializer) (offset : Nat) : Expr :=
  match value with
  | .simple atom => atom.expr offset
  | .point target property =>
    .mk (.member property.text)
      ⟨offset, offset + (target.text ++ "." ++ property.text).toList.length⟩
      [.mk .identifier ⟨offset, offset + target.text.toList.length⟩ []]
  | .composed term => term.expr offset

variable {offset : Nat} {token fence : Token} {rest : List Token}

theorem written_strokes (value : Initializer) :
    Stroke.written value.strokes = value.text.toList := by
  cases value with
  | simple atom => exact atom.written_strokes
  | point target property => simp [strokes, text]
  | composed term => exact term.written_strokes

theorem span_expr (value : Initializer) (offset : Nat) :
    (value.expr offset).span = ⟨offset, offset + value.text.toList.length⟩ := by
  cases value with
  | simple atom => exact atom.span_expr offset
  | point target property => rfl
  | composed term => exact term.span_expr offset

/-- A value is a phrase. -/
theorem phrase (value : Initializer) : Phrase value.strokes := by
  cases value with
  | simple atom => exact atom.phrase
  | point target property =>
    refine ⟨fun {after before} ends => .word target.isWhole rfl ⟨Lexer.startsWith_point ?_,
      property.phrase.legible ends⟩, ?_, .plain rfl (.plain rfl (.plain rfl .nil)), fun _ => rfl⟩
    · rw [Stroke.written_lexeme, List.append_assoc]
      exact property.startsWord _
    · exact target.phrase.solid_append [.sign ".", word property.text]
  | composed term => exact term.phrase

theorem text_ne (value : Initializer) : value.text ≠ "" :=
  value.phrase.text_ne value.written_strokes

/-- **A value is read** as its expression, before what ends it. -/
theorem read_assignment (value : Initializer) (closed : fence.Closes)
    (closes : token.isPunctIn Expr.closers = true) (unclosed : Unclosed (token :: rest)) :
    read .assignment ⟨Stroke.tokens false offset value.strokes ++ token :: rest, fence⟩ =
      some (value.expr offset, ⟨token :: rest, fence⟩) := by
  cases value with
  | simple atom => exact atom.read_assignment closed closes
  | point target property =>
    have place : offset + target.text.toList.length + 1 + property.text.toList.length =
        offset + (target.text ++ "." ++ property.text).toList.length := by
      simp
      omega
    refine Expr.read_simple (Atom.starts_word target _) closed closed
      (Expr.atArrow_name rfl (target.isWord _ _ _ (by decide)) rfl) closes
      ((Atom.read_word target closed).trans ((Expr.read_access closed rfl rfl).trans ?_))
    rw [expr, ← place]
    rfl
  | composed term => exact term.read_assignment closed closes unclosed

end Initializer

end SourceCanvas
