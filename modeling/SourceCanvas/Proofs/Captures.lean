import SourceCanvas.Proofs.OutlineForest
import SourceCanvas.Proofs.ParseProgress

/-!
# Where functions come from

Functions are read at the top of a text only: neither an expression nor a statement in a body makes
one (`Construct.Plain`). So each function of a text has been read by `functionStatement`, between
two braces that match (`Construct.Captured`, `captured_of_parse`), and what it holds of its
body is the text between these, laid out anew.
-/

namespace SourceCanvas

open Cursor Extent

/-! ## Braces -/

/-- The tokens between an opening brace and the brace that closes it. -/
structure Braces (tokens : List Token) (opener : Token) (inner : List Token) (closer : Token) :
    Prop where
  place : ∃ before behind, tokens = before ++ opener :: (inner ++ closer :: behind)
  opens : opener.isPunct "\x7b" = true
  closes : closer.isPunct "\x7d" = true
  matched : Lexer.openBrackets [] inner = .ok []

namespace Lexer

variable {opened outer tokens inner behind left : List Token} {token opener closer : Token}

theorem openBrackets_opener (opens : token.isOpener = true) :
    openBrackets opened (token :: tokens) = openBrackets (token :: opened) tokens := by
  rw [openBrackets.eq_def]
  simp only [opens, if_true]

theorem openBrackets_closer (opens : ¬token.isOpener = true) (closes : token.isCloser = true) :
    openBrackets (opener :: opened) (token :: tokens) =
      if token.value = closerOf opener.value then openBrackets opened tokens else .error token := by
  rw [openBrackets.eq_def]
  simp only [opens, closes, if_true, Bool.false_eq_true, if_false]

theorem openBrackets_other (opens : ¬token.isOpener = true) (closes : ¬token.isCloser = true) :
    openBrackets opened (token :: tokens) = openBrackets opened tokens := by
  rw [openBrackets.eq_def]
  simp only [opens, closes, Bool.false_eq_true, if_false]

/-- Brackets that are open further out stay open. -/
theorem openBrackets_under (matched : openBrackets opened tokens = .ok left) (outer : List Token) :
    openBrackets (opened ++ outer) tokens = .ok (left ++ outer) := by
  induction tokens generalizing opened with
  | nil =>
    cases matched
    rfl
  | cons token tokens ih =>
    by_cases opens : token.isOpener = true
    · rw [openBrackets_opener opens] at matched ⊢
      exact ih matched
    by_cases closes : token.isCloser = true
    · cases opened with
      | nil =>
        -- nothing is open that the token could close
        rw [openBrackets.eq_def] at matched
        simp [opens, closes] at matched
      | cons innermost opened =>
        rw [List.cons_append, openBrackets_closer opens closes]
        rw [openBrackets_closer opens closes] at matched
        split at matched
        · next same =>
          rw [if_pos same]
          exact ih matched
        · cases matched
    · rw [openBrackets_other opens closes] at matched ⊢
      exact ih matched

/-- An opener is still open behind tokens whose brackets match. -/
theorem not_matched_of_opener {before : List Token} (opens : token.isOpener = true)
    (matched : openBrackets [] tokens = .ok []) :
    openBrackets opened (before ++ token :: tokens) ≠ .ok [] := by
  intro whole
  obtain ⟨opened', -, whole⟩ := exists_openBrackets whole
  rw [openBrackets_opener opens] at whole
  have stays := openBrackets_under matched (token :: opened')
  rw [List.nil_append, whole] at stays
  cases stays

/-- Counting brackets finds the closer that matches: up to it all brackets match that are opened
behind the one it closes. -/
theorem openBrackets_enclosed
    (matched : openBrackets (opened ++ opener :: outer) tokens = .ok left)
    (found : enclosed? (opened.length + 1) tokens = some (inner, closer, behind)) :
    openBrackets opened inner = .ok [] ∧ closer.isCloser = true ∧
      closer.value = closerOf opener.value := by
  induction tokens generalizing opened inner with
  | nil => cases found
  | cons token tokens ih =>
    rw [enclosed?] at found
    split at found
    · next opens =>
      rw [openBrackets_opener opens, ← List.cons_append] at matched
      obtain ⟨⟨inner, closer, behind⟩, found, same⟩ := Option.map_eq_some_iff.mp found
      cases same
      rw [openBrackets_opener opens]
      exact ih matched found
    next opens =>
    split at found
    · next closes =>
      cases opened with
      | nil =>
        cases found
        rw [List.nil_append, openBrackets_closer opens closes] at matched
        split at matched
        · next same => exact ⟨rfl, closes, same⟩
        · cases matched
      | cons innermost opened =>
        rw [List.length_cons, if_neg (by omega), Nat.add_sub_cancel] at found
        obtain ⟨⟨inner, closer, behind⟩, found, same⟩ := Option.map_eq_some_iff.mp found
        cases same
        rw [List.cons_append, openBrackets_closer opens closes] at matched
        split at matched
        · next same =>
          rw [openBrackets_closer opens closes, if_pos same]
          exact ih matched found
        · cases matched
    · next closes =>
      rw [openBrackets_other opens closes] at matched
      obtain ⟨⟨inner, closer, behind⟩, found, same⟩ := Option.map_eq_some_iff.mp found
      cases same
      rw [openBrackets_other opens closes]
      exact ih matched found

end Lexer

theorem isOpener_of_brace {token : Token} (brace : token.isPunct "\x7b" = true) :
    token.isOpener = true := by
  obtain ⟨punct, value⟩ := Token.isPunct_iff.mp brace
  simp [Token.isOpener, Token.isPunctIn, punct, value]

/-- In a text whose brackets match, what stands between the brace that a cursor reads and the closer
that is found for it stands between braces. -/
theorem Braces.of_enclosed {tokens inner behind : List Token} {last opener closer : Token}
    {cursor inside : Cursor} (matched : Lexer.openBrackets [] tokens = .ok [])
    (ended : last.kind = .eof) (reaches : Cursor.Reaches ⟨tokens, last⟩ cursor)
    (openerRead : cursor.expectPunct "\x7b" = some (opener, inside))
    (bodyRead : enclosed? 1 inside.rest = some (inner, closer, behind)) :
    Braces tokens opener inner closer := by
  rw [expectPunct] at openerRead
  split at openerRead
  · next brace =>
    cases openerRead
    obtain ⟨fence, before, rfl⟩ := reaches
    obtain ⟨rest, fence⟩ := cursor
    cases fence
    cases rest with
    | nil =>
      -- what stands at the end of the text is no brace
      cases ended.symm.trans (Token.isPunct_iff.mp brace).1
    | cons opener rest =>
      have brace : opener.isPunct "\x7b" = true := brace
      obtain ⟨punct, value⟩ := Token.isPunct_iff.mp brace
      have opens := isOpener_of_brace brace
      obtain ⟨parts, -⟩ := eq_of_enclosed? bodyRead
      have parts : rest = inner ++ closer :: behind := parts
      obtain ⟨outer, -, matched⟩ := Lexer.exists_openBrackets matched
      rw [Lexer.openBrackets_opener opens] at matched
      obtain ⟨inner_matched, closes, same⟩ :=
        @Lexer.openBrackets_enclosed [] outer rest inner behind [] opener closer matched bodyRead
      refine ⟨⟨before, behind, ?_⟩, brace, Token.isPunct_iff.mpr ⟨?_, ?_⟩, inner_matched⟩
      · rw [← parts]
        rfl
      · exact (Token.isPunctIn_iff.mp closes).1
      · rw [same, value]
        rfl
  · cases openerRead

/-- Where a token stands among others is known from its end. -/
theorem Laid.eq_of_stop {fence : Span} {lo : Nat} {before behind before' behind' : List Token}
    {token token' : Token} (laid : Laid fence lo (before ++ token :: behind))
    (parts : before ++ token :: behind = before' ++ token' :: behind')
    (same : token.stop = token'.stop) : before = before' := by
  have apart {before between behind : List Token} {token token' : Token}
      (laid : Laid fence lo (before ++ token :: (between ++ token' :: behind))) :
      token.stop < token'.stop := by
    obtain ⟨start, filled, -⟩ := laid.split.2.2.2.split
    omega
  rcases List.append_eq_append_iff.mp parts with ⟨more, rfl, tail⟩ | ⟨more, rfl, tail⟩
  · cases more with
    | nil => exact (List.append_nil before).symm
    | cons head between =>
      obtain ⟨rfl, rfl⟩ := List.cons.inj tail
      exact absurd same (Nat.ne_of_lt (apart laid))
  · cases more with
    | nil => exact List.append_nil before'
    | cons head between =>
      obtain ⟨rfl, rfl⟩ := List.cons.inj tail
      rw [parts] at laid
      exact absurd same.symm (Nat.ne_of_lt (apart laid))

/-- Between what braces a token stands is known from the end of the second one. -/
theorem Braces.eq_of_stop {fence : Span} {lo : Nat} {tokens inner inner' : List Token}
    {opener closer opener' closer' : Token} (laid : Laid fence lo tokens)
    (braces : Braces tokens opener inner closer) (braces' : Braces tokens opener' inner' closer')
    (same : closer.stop = closer'.stop) : inner = inner' := by
  obtain ⟨before, behind, rfl⟩ := braces.place
  obtain ⟨before', behind', parts⟩ := braces'.place
  rw [← List.cons_append, ← List.cons_append, ← List.append_assoc, ← List.append_assoc] at parts
  rw [← List.cons_append, ← List.append_assoc] at laid
  have front := laid.eq_of_stop parts same
  rcases List.append_eq_append_iff.mp front with ⟨more, rfl, tail⟩ | ⟨more, rfl, tail⟩
  · cases more with
    | nil => exact (List.cons.inj tail).2
    | cons head between =>
      obtain ⟨rfl, rfl⟩ := List.cons.inj tail
      exact absurd braces.matched
        (Lexer.not_matched_of_opener (isOpener_of_brace braces'.opens) braces'.matched)
  · cases more with
    | nil => exact (List.cons.inj tail).2.symm
    | cons head between =>
      obtain ⟨rfl, rfl⟩ := List.cons.inj tail
      exact absurd braces'.matched
        (Lexer.not_matched_of_opener (isOpener_of_brace braces.opens) braces.matched)

/-! ## Plain constructs -/

/-- A construct that declares no function, with none inside it. -/
inductive Construct.Plain : Construct → Prop where
  | mk {attributes : Attributes} {span : Span} {children : List Construct}
      (other : attributes.kind ≠ .functionDecl) (inside : ∀ child ∈ children, Plain child) :
      Plain (.mk attributes span children)

/-- A construct without others inside it is plain if it is no function. -/
theorem Construct.Plain.leaf {attributes : Attributes} (span : Span)
    (other : attributes.kind ≠ .functionDecl) : Plain (.mk attributes span []) :=
  .mk other (by simp)

namespace Expr

variable {source : List Char} {attributes : Attributes}

theorem kind_attributes? {expr : Expr} (known : expr.attributes? source = some attributes) :
    attributes.kind ≠ .functionDecl := by
  rw [Expr.attributes?.eq_def] at known
  simp only at known
  split at known <;> cases known <;> simp [Attributes.kind]

mutual

theorem plain_constructs (source : List Char) :
    (expr : Expr) → ∀ construct ∈ expr.constructs source, construct.Plain
  | .mk form span parts => by
    rw [constructs]
    have inside := plain_listConstructs source parts
    split
    · next attributes known =>
      intro construct member
      obtain rfl := List.mem_singleton.mp member
      exact .mk (kind_attributes? known) inside
    · exact inside

theorem plain_listConstructs (source : List Char) :
    (exprs : List Expr) → ∀ construct ∈ listConstructs source exprs, construct.Plain
  | [] => by simp [listConstructs]
  | expr :: others => by
    rw [listConstructs]
    intro construct member
    rcases List.mem_append.mp member with member | member
    · exact plain_constructs source expr construct member
    · exact plain_listConstructs source others construct member

end

end Expr

/-! ## Statements -/

namespace StatementReader

/-- The constructs that a reader gives are plain. -/
def Plain (reader : StatementReader) : Prop :=
  ∀ {cursor after : Cursor} {constructs : List Construct},
    reader cursor = some (constructs, after) → ∀ construct ∈ constructs, construct.Plain

variable {reader : StatementReader} {cursor : Cursor}

/-- Each construct of a window is given by the reader at a cursor that is reached. -/
theorem Onward.mem_all (onward : reader.Onward) (closed : cursor.fence.Closes) {fuel : Nat}
    {construct : Construct} (member : construct ∈ reader.all fuel cursor) :
    ∃ place after constructs, cursor.Reaches place ∧ reader place = some (constructs, after) ∧
      construct ∈ constructs := by
  induction fuel generalizing cursor with
  | zero => cases member
  | succ fuel ih =>
    rw [all] at member
    split at member
    · cases member
    · next inside =>
      have advances := onward.advances_orSkip closed inside
      rcases List.mem_append.mp member with member | member
      · have member : construct ∈ (reader.orSkip cursor).1 := member
        rw [orSkip] at member
        split at member
        · next constructs after read =>
          exact ⟨cursor, after, constructs, .refl cursor, read, member⟩
        · cases member
      · obtain ⟨place, after, constructs, reaches, read, member⟩ :=
          ih (advances.toReaches.closes closed) member
        exact ⟨place, after, constructs, advances.toReaches.trans reaches, read, member⟩

end StatementReader

namespace Reading

variable {reading : Reading} {tokens : List Token} {last : Token} {start : Nat}

theorem plain_reclassified? {name : String} {initializer : Expr} {span : Span}
    {construct : Construct} (made : reclassified? reading name initializer span = some construct) :
    construct.Plain := by
  rw [reclassified?] at made
  split at made
  · cases made
  obtain ⟨kind, -, made⟩ := Option.bind_eq_some_iff.mp made
  split at made
  · obtain ⟨⟨label, value⟩, -, made⟩ := Option.bind_eq_some_iff.mp made
    cases made
    exact .leaf span (by simp [Attributes.kind])
  · obtain ⟨attributes, known, made⟩ := Option.bind_eq_some_iff.mp made
    split at made
    · cases made
      refine .mk ?_ (Expr.plain_listConstructs reading.source _)
      rw [Attributes.kind_withName]
      exact Expr.kind_attributes? known
    · cases made

theorem plain_declaration (reading : Reading) (keyword name : String) (type : Option Span)
    (initializer : Option Expr) (span : Span) :
    (declaration reading keyword name type initializer span).Plain := by
  rw [declaration]
  split
  · next construct made =>
    obtain ⟨expr, -, made⟩ := Option.bind_eq_some_iff.mp made
    exact plain_reclassified? made
  · refine .mk (by simp [Attributes.kind]) ?_
    cases initializer with
    | none => simp
    | some expr => exact Expr.plain_constructs reading.source expr

theorem plain_declarations {keyword : String} {depth : Nat} {first : Option Nat}
    {cursor after : Cursor} {constructs : List Construct}
    (read : declarations reading keyword depth first cursor = some (constructs, after)) :
    ∀ construct ∈ constructs, construct.Plain := by
  induction depth generalizing cursor first constructs with
  | zero => cases read
  | succ depth ih =>
    obtain ⟨⟨name, inner⟩, nameRead, read⟩ := Option.bind_eq_some_iff.mp read
    obtain ⟨⟨type, stop, inner⟩, typeRead, read⟩ := Option.bind_eq_some_iff.mp read
    obtain ⟨⟨initializer, inner⟩, initializerRead, read⟩ := Option.bind_eq_some_iff.mp read
    have head := plain_declaration reading keyword name.value type initializer
      ⟨first.getD name.start, (initializer.map Expr.stop).getD stop⟩
    simp only at read
    split at read
    · obtain ⟨⟨others, rest⟩, othersRead, read⟩ := Option.bind_eq_some_iff.mp read
      cases read
      exact List.forall_mem_cons.mpr ⟨head, ih othersRead⟩
    · cases read
      exact List.forall_mem_singleton.mpr head

theorem plain_variableStatement : (reading.variableStatement start).Plain := by
  intro cursor after constructs read
  rw [variableStatement] at read
  simp only at read
  obtain ⟨⟨found, inner⟩, declarationsRead, read⟩ := Option.bind_eq_some_iff.mp read
  obtain ⟨inner', endRead, read⟩ := Option.bind_eq_some_iff.mp read
  cases read
  exact plain_declarations declarationsRead

theorem plain_returnStatement : reading.returnStatement.Plain := by
  intro cursor after constructs read
  rw [returnStatement] at read
  simp only at read
  split at read
  · obtain ⟨inner, -, read⟩ := Option.bind_eq_some_iff.mp read
    cases read
    simp
  · obtain ⟨⟨expr, inner⟩, -, read⟩ := Option.bind_eq_some_iff.mp read
    obtain ⟨inner', -, read⟩ := Option.bind_eq_some_iff.mp read
    cases read
    exact Expr.plain_constructs reading.source expr

theorem plain_bodyStatement : reading.bodyStatement.Plain := by
  intro cursor after constructs read
  rw [bodyStatement] at read
  simp only at read
  split at read
  · cases read
    simp
  split at read
  · exact plain_returnStatement read
  split at read
  · exact plain_variableStatement read
  split at read
  · cases read
  · obtain ⟨⟨expr, inner⟩, -, read⟩ := Option.bind_eq_some_iff.mp read
    obtain ⟨inner', -, read⟩ := Option.bind_eq_some_iff.mp read
    cases read
    exact Expr.plain_constructs reading.source expr

theorem plain_importStatement : StatementReader.Plain importStatement := by
  intro cursor after constructs read
  rw [importStatement] at read
  simp only at read
  obtain ⟨⟨attributes, source, inner⟩, -, read⟩ := Option.bind_eq_some_iff.mp read
  obtain ⟨inner', -, read⟩ := Option.bind_eq_some_iff.mp read
  cases read
  exact List.forall_mem_singleton.mpr (.leaf _ (by simp [Attributes.kind]))

theorem plain_exportStar : (exportStar start).Plain := by
  intro cursor after constructs read
  obtain ⟨⟨name, inner⟩, -, read⟩ := Option.bind_eq_some_iff.mp read
  obtain ⟨⟨source, inner⟩, -, read⟩ := Option.bind_eq_some_iff.mp read
  obtain ⟨inner', -, read⟩ := Option.bind_eq_some_iff.mp read
  cases read
  exact List.forall_mem_singleton.mpr (.leaf _ (by simp [Attributes.kind]))

theorem plain_exportNamed : (exportNamed start).Plain := by
  intro cursor after constructs read
  obtain ⟨⟨names, closer, inner⟩, -, read⟩ := Option.bind_eq_some_iff.mp read
  obtain ⟨⟨source, stop, inner⟩, -, read⟩ := Option.bind_eq_some_iff.mp read
  obtain ⟨inner', -, read⟩ := Option.bind_eq_some_iff.mp read
  cases read
  exact List.forall_mem_singleton.mpr (.leaf _ (by simp [Attributes.kind]))

theorem plain_exportDefault : (reading.exportDefault start).Plain := by
  intro cursor after constructs read
  obtain ⟨⟨expr, inner⟩, -, read⟩ := Option.bind_eq_some_iff.mp read
  obtain ⟨inner', -, read⟩ := Option.bind_eq_some_iff.mp read
  cases read
  exact List.forall_mem_singleton.mpr (.leaf _ (by simp [Attributes.kind]))

theorem plain_interfaceStatement : (reading.interfaceStatement start).Plain := by
  intro cursor after constructs read
  obtain ⟨⟨name, inner⟩, -, read⟩ := Option.bind_eq_some_iff.mp read
  obtain ⟨inner, -, read⟩ := Option.bind_eq_some_iff.mp read
  obtain ⟨⟨bases, inner⟩, -, read⟩ := Option.bind_eq_some_iff.mp read
  obtain ⟨⟨opener, inside⟩, -, read⟩ := Option.bind_eq_some_iff.mp read
  obtain ⟨⟨tokens, closer, rest⟩, -, read⟩ := Option.bind_eq_some_iff.mp read
  cases read
  exact List.forall_mem_singleton.mpr (.leaf _ (by simp [Attributes.kind]))

end Reading

/-! ## Captured functions -/

/-- What a construct at the top of a text is: a plain one, or a function that ends with a brace and
holds what stands between this brace and the one that it closes, laid out anew. -/
inductive Construct.Captured (reading : Reading) (tokens : List Token) : Construct → Prop where
  | plain {construct : Construct} (plain : construct.Plain) : Captured reading tokens construct
  | function {function : FunctionAttributes} {span : Span} {children : List Construct}
      {opener closer : Token} {inner : List Token} (braces : Braces tokens opener inner closer)
      (ends : span.stop = closer.stop)
      (body : function.body = (Text.dedent? (reading.text ⟨opener.stop, closer.start⟩).toList).map
        String.ofList)
      (inside : ∀ child ∈ children, child.Plain) :
      Captured reading tokens (.mk (.functionDecl function) span children)

namespace Reading

variable {reading : Reading} {tokens : List Token} {last : Token} {start : Nat}

/-- What a reader gives at a cursor of a text with the given tokens is captured from them. -/
def Captures (reading : Reading) (tokens : List Token) (last : Token) (reader : StatementReader) :
    Prop :=
  ∀ {cursor after : Cursor} {constructs : List Construct}, Cursor.Reaches ⟨tokens, last⟩ cursor →
    reader cursor = some (constructs, after) → ∀ construct ∈ constructs,
      construct.Captured reading tokens

theorem captures_of_plain {reader : StatementReader} (plain : reader.Plain) :
    reading.Captures tokens last reader :=
  fun _ read construct member => .plain (plain read construct member)

theorem captures_functionStatement (matched : Lexer.openBrackets [] tokens = .ok [])
    (ended : last.kind = .eof) :
    reading.Captures tokens last (reading.functionStatement start) := by
  intro cursor after constructs reaches read
  have closed : cursor.fence.Closes := reaches.closes (.inr ended)
  obtain ⟨head, inside, opener, closer, inner, behind, passed, openerRead, bodyRead, -, made⟩ :=
    functionStatement_eq_some closed read
  rcases made with ⟨request, rfl⟩ | ⟨function, body, rfl⟩
  · exact List.forall_mem_singleton.mpr (.plain (.leaf _ (by simp [Attributes.kind])))
  · have braces : Braces tokens opener inner closer :=
      .of_enclosed matched ended (reaches.trans passed.toReaches) openerRead bodyRead
    refine List.forall_mem_singleton.mpr (.function braces rfl body fun child member => ?_)
    have closes : Token.Closes closer := .inl (eq_of_enclosed? bodyRead).2
    obtain ⟨place, after, constructs, -, read, member⟩ :=
      onward_bodyStatement.mem_all closes member
    exact plain_bodyStatement read child member

theorem captures_exportStatement (matched : Lexer.openBrackets [] tokens = .ok [])
    (ended : last.kind = .eof) : reading.Captures tokens last reading.exportStatement := by
  intro cursor after constructs reaches read
  have function (start : Nat) : reading.Captures tokens last (reading.functionStatement start) :=
    captures_functionStatement matched ended
  have next := reaches.trans (reaches_advance cursor)
  rw [exportStatement] at read
  simp only at read
  split at read
  · split at read
    · exact function _ (next.trans (reaches_advance _)) read
    split at read
    · cases read
    · exact captures_of_plain plain_exportDefault (next.trans (reaches_advance _)) read
  split at read
  · exact captures_of_plain plain_exportStar (next.trans (reaches_advance _)) read
  split at read
  · exact captures_of_plain plain_exportNamed next read
  split at read
  · exact function _ next read
  split at read
  · exact captures_of_plain plain_interfaceStatement next read
  split at read
  · exact captures_of_plain plain_variableStatement next read
  · cases read

theorem captures_topStatement (matched : Lexer.openBrackets [] tokens = .ok [])
    (ended : last.kind = .eof) : reading.Captures tokens last reading.topStatement := by
  intro cursor after constructs reaches read
  rw [topStatement] at read
  split at read
  · cases read
    simp
  split at read
  · exact captures_of_plain plain_importStatement reaches read
  split at read
  · exact captures_exportStatement matched ended reaches read
  split at read
  · exact captures_functionStatement matched ended reaches read
  split at read
  · exact captures_of_plain plain_interfaceStatement reaches read
  split at read
  · exact captures_of_plain plain_variableStatement reaches read
  · cases read

end Reading

/-! ## Nodes -/

/-- No node of a plain construct is a function. -/
theorem Construct.Plain.nodes {construct : Construct} (plain : construct.Plain)
    {parent : Option String} {node : Node} (member : node ∈ construct.nodes parent)
    {function : FunctionAttributes} : node.content ≠ .typed (.functionDecl function) := by
  induction plain generalizing parent with
  | @mk attributes span children other inside ih =>
    rw [Construct.nodes] at member
    rcases List.mem_cons.mp member with rfl | member
    · intro same
      cases same
      exact other rfl
    · obtain ⟨child, child_mem, member⟩ := Construct.mem_listNodes.mp member
      exact ih child child_mem member

/-- Each function among the nodes of a text that has tokens is captured from between two braces,
the second of which it ends with. -/
theorem captured_of_parse {reclassify : Bool} {text : String} {tokens : List Token}
    {nodes : List Node} (tokenized : tokenize text = .ok tokens)
    (read : parse reclassify text = .ok nodes)
    {node : Node} (member : node ∈ nodes) {function : FunctionAttributes}
    (declared : node.content = .typed (.functionDecl function)) :
    ∃ opener inner closer span, node.span = some span ∧
      Braces tokens.dropLast opener inner closer ∧ span.stop = closer.stop ∧
      function.body = (Text.dedent?
        (Span.slice ⟨opener.stop, closer.start⟩ text.toList).toList).map String.ofList := by
  obtain ⟨before, newline, rfl, -, matched⟩ := laid_of_tokenize tokenized
  rw [parse, outline, tokenized] at read
  cases read
  obtain ⟨construct, construct_mem, member⟩ := Construct.mem_listNodes.mp member
  rw [Reading.outline, List.dropLast_concat, List.getLastD_concat] at construct_mem
  have ended : (Token.atEnd text.length newline).kind = .eof := rfl
  obtain ⟨place, after, constructs, reaches, read, construct_mem⟩ :=
    Reading.onward_topStatement.mem_all (.inr ended) construct_mem
  rw [List.dropLast_concat]
  cases Reading.captures_topStatement matched ended reaches read construct construct_mem with
  | plain plain => exact absurd declared (plain.nodes member)
  | @function function' span children opener closer inner braces ends body inside =>
    rw [Construct.nodes] at member
    rcases List.mem_cons.mp member with rfl | member
    · cases declared
      exact ⟨opener, inner, closer, span, rfl, braces, ends, body⟩
    · obtain ⟨child, child_mem, member⟩ := Construct.mem_listNodes.mp member
      exact absurd declared ((inside child child_mem).nodes member)

end SourceCanvas
