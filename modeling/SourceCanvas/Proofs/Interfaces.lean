import SourceCanvas.Proofs.Statements

/-!
# Written interfaces

The text of an interface, with members whose types and whose bases are of the grammar of written
types, is a statement in which the same interface is found (`statement_interface`). Its members are
read line by line, each up to the semicolon.
-/

namespace SourceCanvas

open Stroke (Legible Phrase Paired listed word sign space)

/-! ## Lines -/

namespace Stroke

/-- The end of a line, with the blanks that the next one starts with. -/
def lineBreak (blanks : Nat) : Stroke := gap (.blanks ('\n' :: List.replicate blanks ' '))

/-- Strokes on lines of their own. -/
def lines (blanks : Nat) : List (List Stroke) → List Stroke
  | [] => []
  | line :: others => lineBreak blanks :: (line ++ lines blanks others)

variable {α : Type} {strokes : α → List Stroke} {others : List Stroke} {after : List Char}
  {before newline : Bool} {blanks offset : Nat}

@[simp] theorem written_lineBreak (blanks : Nat) (others : List Stroke) :
    written (lineBreak blanks :: others) = '\n' :: (List.replicate blanks ' ' ++ written others) :=
  rfl

@[simp] theorem tokens_lineBreak (newline : Bool) (blanks offset : Nat) (others : List Stroke) :
    tokens newline offset (lineBreak blanks :: others) =
      tokens true (offset + (blanks + 1)) others := by
  have ends : Lexer.isNewline '\n' = true := by decide
  simp [lineBreak, tokens, Filler.breaksLine, Filler.chars, ends]

theorem Legible.lineBreak (solid : (written others ++ after).head?.any Lexer.isSpace = false)
    (later : Legible after before others) :
    Legible after before (Stroke.lineBreak blanks :: others) := by
  refine .blanks (List.cons_ne_nil _ _) ?_ solid later
  have blank : Lexer.isSpace '\n' = true ∧ Lexer.isSpace ' ' = true := by decide
  simp [blank]

/-- Lines are legible before another end of a line. -/
theorem legible_lines (phrase : ∀ item, Phrase (strokes item)) (items : List α)
    (ends : Lexer.chunk after = []) : Legible after before (lines blanks (items.map strokes)) := by
  induction items generalizing before with
  | nil => trivial
  | cons item items ih =>
    have end' : Lexer.chunk (written (lines blanks (items.map strokes)) ++ after) = [] := by
      cases items with
      | nil => exact ends
      | cons next items => exact Lexer.chunk_cons_of_ends (by decide) _
    refine .lineBreak ?_ (legible_append.mpr ⟨(phrase item).legible end', ih⟩)
    rw [written_append, List.append_assoc]
    exact (phrase item).head _

theorem paired_lines (phrase : ∀ item, Phrase (strokes item)) (items : List α) :
    Paired (lines blanks (items.map strokes)) := by
  induction items with
  | nil => exact .nil
  | cons item items ih => exact .plain rfl ((phrase item).paired.append ih)

theorem unclosed_lines {rest : List Token}
    (item : ∀ {newline offset rest} (item : α), Unclosed rest →
      Unclosed (tokens newline offset (strokes item) ++ rest))
    (items : List α) (later : Unclosed rest) :
    Unclosed (tokens newline offset (lines blanks (items.map strokes)) ++ rest) := by
  induction items generalizing newline offset with
  | nil => exact later
  | cons first others ih =>
    rw [List.map_cons, lines, tokens_lineBreak, tokens_append, List.append_assoc]
    exact item first ih

theorem written_lines (blanks : Nat) (items : List (List Stroke)) :
    written (lines blanks items) = items.flatMap fun item =>
      '\n' :: (List.replicate blanks ' ' ++ written item) := by
  induction items with
  | nil => rfl
  | cons item items ih => simp [lines, written_append, ih]

end Stroke

open Stroke (lineBreak lines tokens_lineBreak)

/-! ## Members -/

/-- A member of an interface. -/
structure Field where
  name : PlainName
  type : WrittenType false
  optional : Bool

namespace Field

/-- What is known about a member. -/
def member (field : Field) : Member :=
  { name := field.name.text, type := field.type.text, optional := field.optional }

/-- The strokes of the line of a member. -/
def strokes (field : Field) : List Stroke :=
  labelled field.name field.optional (some field.type) ++ [sign ";"]

/-- The strokes of a line are that line. -/
theorem written_strokes (field : Field) :
    Stroke.written field.strokes = field.member.line.toList := by
  simp [strokes, Stroke.written_append, written_labelled, member, Member.line, orElse,
    field.type.text_ne, optionMark, WrittenType.typedText]
  rfl

/-- A line is a phrase. -/
theorem phrase (field : Field) : Phrase field.strokes := by
  have label := phrase_labelled field.name field.optional (some field.type)
  refine ⟨fun ends => Stroke.legible_append.mpr
      ⟨label.legible (Lexer.chunk_cons_of_ends (by decide) _), .single (by decide) trivial⟩,
    label.solid_append _, label.paired.append (.plain rfl .nil), fun newline => ?_⟩
  rw [strokes, Stroke.breaks_append]
  rfl

theorem unclosed {newline : Bool} {offset : Nat} {rest : List Token} (field : Field)
    (later : Unclosed rest) :
    Unclosed (Stroke.tokens newline offset field.strokes ++ rest) := by
  rw [strokes, Stroke.tokens_append, List.append_assoc]
  exact unclosed_labelled (.cons (.inr rfl) later)

/-- **A member is read** up to the semicolon of its line. -/
theorem exists_typedMember (reading : Reading) (field : Field) (newline : Bool) {offset : Nat}
    (stands : StandsAt reading.source offset (Stroke.written field.strokes)) :
    ∃ name inside semicolon, Stroke.tokens newline offset field.strokes =
        name :: (inside ++ [semicolon]) ∧
      name.isPunctIn [";", ","] = false ∧ semicolon.isPunct ";" = true ∧
      ∀ rest fence, reading.typedMember ⟨name :: (inside ++ semicolon :: rest), fence⟩ =
        some (field.member, ⟨semicolon :: rest, fence⟩) := by
  have apart : field.name.text ≠ "readonly" := field.name.ne_of_mem (by decide)
  have label := tokens_labelled field.name field.optional (some field.type) newline offset
  obtain ⟨marked, markedName⟩ : ∃ marked, marked = offset + field.name.text.toList.length :=
    ⟨_, rfl⟩
  obtain ⟨past, place⟩ : ∃ past, past = offset + (field.name.text ++
    optionMark field.optional).toList.length := ⟨_, rfl⟩
  let name : Token := ⟨.identifier, field.name.text, ⟨offset, marked⟩, newline⟩
  let colon : Token := ⟨.punctuator, ":", ⟨past, past + 1⟩, false⟩
  let type := Stroke.tokens false (past + 2) (field.type.strokes 0)
  let stop := past + 2 + field.type.text.toList.length
  let semicolon : Token := ⟨.punctuator, ";", ⟨stop, stop + 1⟩, false⟩
  rw [← markedName, ← place] at label
  have text : reading.text ⟨past + 2, stop⟩ = field.type.text := by
    refine StandsAt.slice_text (stands.within (field.name.text ++ optionMark field.optional ++
      ": ").toList [';'] ?_ ?_)
    · simp [strokes, Stroke.written_append, written_labelled, WrittenType.typedText]
    · simp [place, Nat.add_assoc]
  have ends (last : Token) (complete : Extent.completesType (some last) = true) :
      Extent.TypeEnd.endsBefore ⟨[";", ","], false⟩ (some last) semicolon = true := by
    simp [semicolon, Extent.TypeEnd.endsBefore, Token.isPunctIn]
  refine ⟨name, markTokens field.optional marked ++ colon :: type, semicolon, ?_, rfl, rfl,
    fun rest fence => ?_⟩
  · have length : offset + (Stroke.written (labelled field.name field.optional
        (some field.type))).length = stop := by
      simp [written_labelled, WrittenType.typedText, stop, place]
      omega
    have unbroken := (phrase_labelled field.name field.optional (some field.type)).unbroken newline
    rw [strokes, Stroke.tokens_append, label, unbroken, length, WrittenType.typed, Stroke.tokens,
      Stroke.tokens_space, List.cons_append]
    rfl
  · have found : Extent.type? ⟨type ++ semicolon :: rest, fence⟩ ⟨[";", ","], false⟩ =
        some (⟨past + 2, stop⟩, ⟨semicolon :: rest, fence⟩) :=
      field.type.type?_strokes (by decide) ends _
    obtain ⟨mark, skipped⟩ := @peek_markTokens field.optional marked
      (colon :: (type ++ semicolon :: rest)) fence rfl
    have other : name.isWord "readonly" = false := by simp [name, Token.isWord, apart]
    have peeked : (⟨name :: (markTokens field.optional marked ++
        colon :: (type ++ semicolon :: rest)), fence⟩ : Cursor).peek = name := rfl
    have advanced : (⟨name :: (markTokens field.optional marked ++
        colon :: (type ++ semicolon :: rest)), fence⟩ : Cursor).advance =
      ⟨markTokens field.optional marked ++ colon :: (type ++ semicolon :: rest), fence⟩ := rfl
    have colon' : (⟨colon :: (type ++ semicolon :: rest), fence⟩ : Cursor).peek.isPunct ":" =
      true := rfl
    have behind : (⟨colon :: (type ++ semicolon :: rest), fence⟩ : Cursor).advance =
      ⟨type ++ semicolon :: rest, fence⟩ := rfl
    rw [List.append_assoc, List.cons_append]
    simp [Reading.typedMember, peeked, other, advanced, mark, skipped, colon', behind, found, text,
      member, name]

/-- **Members are read** line by line. -/
theorem members_lines (reading : Reading) (fields : List Field) {depth blanks offset : Nat}
    {newline : Bool} {closer : Token}
    (deep : (Stroke.tokens newline offset (lines blanks (fields.map strokes))).length < depth)
    (stands : StandsAt reading.source offset
      (Stroke.written (lines blanks (fields.map strokes)))) :
    reading.members depth
        ⟨Stroke.tokens newline offset (lines blanks (fields.map strokes)), closer⟩ =
      fields.map member := by
  induction fields generalizing depth newline offset with
  | nil =>
    cases depth with
    | zero => rfl
    | succ depth => rfl
  | cons field fields ih =>
    obtain ⟨start, place⟩ : ∃ start, start = offset + (blanks + 1) := ⟨_, rfl⟩
    have fieldStands : StandsAt reading.source start (Stroke.written field.strokes) :=
      stands.within ('\n' :: List.replicate blanks ' ')
        (Stroke.written (lines blanks (fields.map strokes)))
        (by simp [lines, Stroke.written_append]) (by simp [place])
    have linesStand : StandsAt reading.source (start + (Stroke.written field.strokes).length)
        (Stroke.written (lines blanks (fields.map strokes))) :=
      stands.within ('\n' :: (List.replicate blanks ' ' ++ Stroke.written field.strokes)) []
        (by simp [lines, Stroke.written_append]) (by simp [place]; omega)
    obtain ⟨name, inside, semicolon, same, other, ends, read⟩ :=
      exists_typedMember reading field true fieldStands
    have parts : Stroke.tokens newline offset (lines blanks ((field :: fields).map strokes)) =
        name :: (inside ++ semicolon :: Stroke.tokens false
          (start + (Stroke.written field.strokes).length) (lines blanks (fields.map strokes))) := by
      rw [List.map_cons, lines, tokens_lineBreak, Stroke.tokens_append, field.phrase.unbroken,
        ← place, same, List.cons_append, List.append_assoc]
      rfl
    rw [parts] at deep ⊢
    obtain ⟨depth, rfl⟩ : ∃ depth', depth = depth' + 2 := by
      simp only [List.length_cons, List.length_append] at deep
      exact ⟨depth - 2, by omega⟩
    have later := @ih depth (start + (Stroke.written field.strokes).length) false
      (by simp at deep ⊢; omega) linesStand
    have separates : semicolon.isPunctIn [";", ","] = true := by
      obtain ⟨kind, value⟩ := Token.isPunct_iff.mp ends
      exact Token.isPunctIn_iff.mpr ⟨kind, by simp [value]⟩
    have first (next : Answers fun _ : Unit => List Member) (rest : List Token) :
        Reading.memberStep reading next () ⟨name :: (inside ++ semicolon :: rest), closer⟩ =
          field.member :: next () ⟨semicolon :: rest, closer⟩ := by
      have peeked : (⟨name :: (inside ++ semicolon :: rest), closer⟩ : Cursor).peek = name := rfl
      simp [Reading.memberStep, Cursor.atEnd, peeked, other, read rest closer]
    have second (next : Answers fun _ : Unit => List Member) (rest : List Token) :
        Reading.memberStep reading next () ⟨semicolon :: rest, closer⟩ =
          next () ⟨rest, closer⟩ := by
      simp [Reading.memberStep, Cursor.atEnd, Cursor.peek, Cursor.advance, separates]
    exact (first _ _).trans (congrArg (field.member :: ·) ((second _ _).trans later))

end Field

/-! ## Types that are extended -/

section Bases

variable {after : List Char} {before newline : Bool} {offset : Nat} {fence : Token}
  {rest : List Token}

/-- The strokes of types with commas between them. -/
abbrev bases (types : List (WrittenType false)) : List Stroke :=
  listed (types.map (WrittenType.strokes 0))

/-- The strokes of the types that an interface extends, with the word for it. -/
def extending : List (WrittenType false) → List Stroke
  | [] => []
  | first :: others => space :: word "extends" :: space :: bases (first :: others)

theorem written_bases (types : List (WrittenType false)) :
    Stroke.written (bases types) = (", ".intercalate (types.map WrittenType.text)).toList := by
  simp [Stroke.written_listed, String.toList_intercalate, Function.comp_def,
    WrittenType.written_strokes]

/-- What an interface extends is read up to its brace. -/
theorem baseTypes_strokes (reading : Reading) (first : WrittenType false)
    (others : List (WrittenType false)) {depth : Nat} {brace : Token}
    (opens : brace.isPunct "\x7b" = true) (deep : others.length < depth)
    (stands : StandsAt reading.source offset (Stroke.written (bases (first :: others)))) :
    reading.baseTypes depth
        ⟨Stroke.tokens false offset (bases (first :: others)) ++ brace :: rest, fence⟩ =
      some ((first :: others).map WrittenType.text, ⟨brace :: rest, fence⟩) := by
  have length (type : WrittenType false) :
      (Stroke.written (type.strokes 0)).length = type.text.toList.length := by
    simp [WrittenType.written_strokes]
  induction others generalizing first depth offset with
  | nil =>
    obtain ⟨depth, rfl⟩ := Nat.exists_eq_add_one_of_ne_zero (Nat.ne_of_gt deep)
    have ends (last : Token) (complete : Extent.completesType (some last) = true) :
        Extent.TypeEnd.endsBefore ⟨[",", "\x7b"], true⟩ (some last) brace = true := by
      simp [Extent.TypeEnd.endsBefore, opens, complete]
    have found : Extent.type? ⟨Stroke.tokens false offset (first.strokes 0) ++ brace :: rest,
        fence⟩ ⟨[",", "\x7b"], true⟩ = _ := first.type?_strokes (by decide) ends offset
    have text : reading.text ⟨offset, offset + first.text.toList.length⟩ = first.text := by
      rw [written_bases] at stands
      exact StandsAt.slice_text (stands.within [] [] (by simp) rfl)
    have comma : brace.isPunct "," = false := by
      obtain ⟨-, value⟩ := Token.isPunct_iff.mp opens
      simp [Token.isPunct, value]
    have step (next : Answers fun _ : Unit => Option (List String × Cursor)) :
        Reading.baseTypeStep reading next ()
            ⟨Stroke.tokens false offset (first.strokes 0) ++ brace :: rest, fence⟩ =
          some ([first.text], ⟨brace :: rest, fence⟩) := by
      rw [Reading.baseTypeStep, found]
      simp [Cursor.peek, comma, text]
    exact step _
  | cons next others ih =>
    obtain ⟨depth, rfl⟩ := Nat.exists_eq_add_one_of_ne_zero (Nat.ne_of_gt (Nat.zero_lt_of_lt deep))
    obtain ⟨past, place⟩ : ∃ past, past = offset + first.text.toList.length := ⟨_, rfl⟩
    let comma : Token := ⟨.punctuator, ",", ⟨past, past + 1⟩, false⟩
    have parts : Stroke.written (bases (first :: next :: others)) =
        first.text.toList ++ ([',', ' '] ++ Stroke.written (bases (next :: others))) := by
      simp [bases, listed, Stroke.written_append, WrittenType.written_strokes]
    have later := @ih (past + 2) next depth (Nat.lt_of_succ_lt_succ deep)
      (stands.within (first.text.toList ++ [',', ' ']) [] (by simp [parts])
        (by simp [place]; omega))
    have ends (last : Token) (complete : Extent.completesType (some last) = true) :
        Extent.TypeEnd.endsBefore ⟨[",", "\x7b"], true⟩ (some last) comma = true := by
      simp [comma, Extent.TypeEnd.endsBefore, Token.isPunctIn]
    have found (behind : List Token) : Extent.type? ⟨Stroke.tokens false offset (first.strokes 0) ++
        comma :: behind, fence⟩ ⟨[",", "\x7b"], true⟩ = _ :=
      first.type?_strokes (by decide) ends offset
    have text : reading.text ⟨offset, offset + first.text.toList.length⟩ = first.text := by
      rw [parts] at stands
      exact stands.left.slice_text
    have step (answer : Answers fun _ : Unit => Option (List String × Cursor)) (behind : List Token)
        (answered : answer () ⟨behind, fence⟩ =
          some ((next :: others).map WrittenType.text, ⟨brace :: rest, fence⟩)) :
        Reading.baseTypeStep reading answer ()
            ⟨Stroke.tokens false offset (first.strokes 0) ++ comma :: behind, fence⟩ =
          some ((first :: next :: others).map WrittenType.text, ⟨brace :: rest, fence⟩) := by
      have advanced : (⟨comma :: behind, fence⟩ : Cursor).advance = ⟨behind, fence⟩ := rfl
      have peeked : (⟨comma :: behind, fence⟩ : Cursor).peek.isPunct "," = true := rfl
      rw [Reading.baseTypeStep, found]
      simp [peeked, advanced, answered, text]
    have tokens : Stroke.tokens false offset (bases (first :: next :: others)) ++ brace :: rest =
        Stroke.tokens false offset (first.strokes 0) ++
          comma :: (Stroke.tokens false (past + 2) (bases (next :: others)) ++ brace :: rest) := by
      rw [bases, List.map_cons, List.map_cons, Stroke.tokens_listed (first.breaks_strokes _ 0),
        length, ← place, List.append_assoc]
      rfl
    rw [tokens]
    exact step _ _ later

/-- The text of what an interface extends. -/
def extendsText (types : List (WrittenType false)) : String :=
  if types.isEmpty then "" else " extends " ++ ", ".intercalate (types.map WrittenType.text)

theorem written_extending (types : List (WrittenType false)) :
    Stroke.written (extending types) = (extendsText types).toList := by
  cases types with
  | nil => rfl
  | cons first others =>
    have listed := written_bases (first :: others)
    simp [extending, extendsText, listed]

theorem phrase_bases (first : WrittenType false) (others : List (WrittenType false)) :
    Phrase (bases (first :: others)) :=
  Phrase.listed (fun type => type.phrase) first others

theorem legible_extending (types : List (WrittenType false)) (ends : Lexer.chunk after = []) :
    Legible after before (extending types) := by
  cases types with
  | nil => trivial
  | cons first others =>
    have phrase := phrase_bases first others
    exact .space rfl (.word rfl rfl (.space (phrase.head _) (phrase.legible ends)))

theorem chunk_extending (types : List (WrittenType false)) (ends : Lexer.chunk after = []) :
    Lexer.chunk (Stroke.written (extending types) ++ after) = [] := by
  cases types with
  | nil => exact ends
  | cons first others => exact Lexer.chunk_cons_of_ends (by decide) _

theorem paired_extending (types : List (WrittenType false)) : Paired (extending types) := by
  cases types with
  | nil => exact .nil
  | cons first others =>
    exact .plain rfl (.plain rfl (.plain rfl (phrase_bases first others).paired))

theorem breaks_extending (types : List (WrittenType false)) :
    Stroke.breaks false (extending types) = false := by
  cases types with
  | nil => rfl
  | cons first others => exact (phrase_bases first others).unbroken false

theorem unclosed_extending (types : List (WrittenType false)) (later : Unclosed rest) :
    Unclosed (Stroke.tokens false offset (extending types) ++ rest) := by
  cases types with
  | nil => exact later
  | cons first others =>
    exact .word (.listed (fun type => .type type) (first :: others) later)

/-- **What an interface extends is read** up to its brace. -/
theorem extended_strokes (reading : Reading) (types : List (WrittenType false)) {brace : Token}
    (opens : brace.isPunct "\x7b" = true)
    (stands : StandsAt reading.source offset (Stroke.written (extending types))) :
    reading.extended ⟨Stroke.tokens false offset (extending types) ++ brace :: rest, fence⟩ =
      some (types.map WrittenType.text, ⟨brace :: rest, fence⟩) := by
  cases types with
  | nil =>
    obtain ⟨kind, -⟩ := Token.isPunct_iff.mp opens
    have plain : brace.isWord "extends" = false := by simp [Token.isWord, kind]
    exact if_neg (Bool.eq_false_iff.mp plain)
  | cons first others =>
    have parts : Stroke.written (extending (first :: others)) =
        " extends ".toList ++ Stroke.written (bases (first :: others)) := rfl
    rw [parts] at stands
    have deep : others.length < (Stroke.tokens false (offset + 9) (bases (first :: others)) ++
        brace :: rest).length + 2 := by
      have items : _ ≤ (Stroke.tokens false (offset + 9) (bases (first :: others))).length + 1 :=
        Stroke.length_le_listed false (offset + 9) _
      rw [List.length_map, List.length_cons] at items
      rw [List.length_append]
      omega
    have found : reading.baseTypes _
        ⟨Stroke.tokens false (offset + 9) (bases (first :: others)) ++ brace :: rest, fence⟩ = _ :=
      baseTypes_strokes reading first others opens deep stands.right
    have word : (⟨Stroke.tokens false offset (extending (first :: others)) ++ brace :: rest,
        fence⟩ : Cursor).peek.isWord "extends" = true := rfl
    rw [Reading.extended, if_pos word]
    exact found

end Bases

/-! ## Interfaces -/

/-- The strokes of an interface. -/
def interface (step : Nat) (name : PlainName) (types : List (WrittenType false))
    (fields : List Field) : List Stroke :=
  word "export" :: space :: word "interface" :: space :: word name.text :: (extending types ++
    space :: sign "\x7b" :: (lines step (fields.map Field.strokes) ++ [lineBreak 0, sign "\x7d"]))

section Interface

variable {step offset : Nat} {name : PlainName} {types : List (WrittenType false)}
  {fields : List Field} {newline : Bool} {rest : List Token}

/-- What is known about an interface. -/
def interfaceAttributes (name : PlainName) (types : List (WrittenType false))
    (fields : List Field) : InterfaceAttributes :=
  { name := name.text, members := fields.map Field.member, bases := types.map WrittenType.text }

theorem toList_unlines (first : String) (others : List String) :
    (unlines (first :: others)).toList =
      first.toList ++ others.flatMap fun line => '\n' :: line.toList := by
  induction others generalizing first with
  | nil => simp [unlines]
  | cons next others ih =>
    have later := ih next
    rw [unlines, String.toList_intercalate] at later ⊢
    simp only [List.map_cons, List.flatMap_cons] at later ⊢
    rw [List.intercalate_cons_cons, later]
    simp

theorem written_interface (step : Nat) (name : PlainName) (types : List (WrittenType false))
    (fields : List Field) : Stroke.written (interface step name types fields) =
      ((interfaceAttributes name types fields).block step).toList := by
  have member (field : Field) : (indented step 1 field.member.line).toList =
      List.replicate step ' ' ++ Stroke.written field.strokes := by
    have filled : field.member.line ≠ "" := by
      obtain ⟨c, others, same, -⟩ := field.phrase.solid
      intro none
      rw [Field.written_strokes, none] at same
      cases same
    simp [indented, filled, Field.written_strokes]
  rw [InterfaceAttributes.block, List.cons_append, toList_unlines]
  simp [interface, interfaceAttributes, Stroke.written_append, written_extending,
    Stroke.written_lines, List.flatMap_map, member, extendsText]

theorem phrase_interface : Phrase (interface step name types fields) := by
  refine ⟨fun {after before} ends => ?_, ⟨'e', _, rfl, rfl⟩, ?_, fun newline => ?_⟩
  · have brace : Lexer.chunk (Stroke.written (space :: sign "\x7b" ::
        (lines step (fields.map Field.strokes) ++ [lineBreak 0, sign "\x7d"])) ++ after) = [] :=
      Lexer.chunk_cons_of_ends (by decide) _
    refine .word rfl rfl (.space rfl (.word rfl rfl (.space (Stroke.solid_word name.isWhole)
      (.word name.isWhole ?_ (Stroke.legible_append.mpr ⟨legible_extending types brace, ?_⟩)))))
    · rw [Stroke.written_append, List.append_assoc]
      exact Lexer.head_not_continuesWord (chunk_extending types brace)
    · exact .space rfl (.single (by decide) (Stroke.legible_append.mpr
        ⟨Stroke.legible_lines Field.phrase fields (Lexer.chunk_cons_of_ends (by decide) _),
          .lineBreak rfl (.single (by decide) trivial)⟩))
  · have inside : Paired (lines step (fields.map Field.strokes) ++ [lineBreak 0]) :=
      (Stroke.paired_lines Field.phrase fields).append (.plain rfl .nil)
    have braces : Paired (sign "\x7b" :: ((lines step (fields.map Field.strokes) ++
        [lineBreak 0]) ++ [sign "\x7d"])) := .pair (by decide) inside .nil
    rw [List.append_assoc] at braces
    exact .plain rfl (.plain rfl (.plain rfl (.plain rfl (.plain rfl
      ((paired_extending types).append (.plain rfl braces))))))
  · exact (Stroke.breaks_append false (extending types) _).trans
      ((Stroke.breaks_append false (lines step (fields.map Field.strokes))
        [lineBreak 0, sign "\x7d"]).trans rfl)

theorem unclosed_interface (later : Unclosed rest) :
    Unclosed (Stroke.tokens newline offset (interface step name types fields) ++ rest) := by
  rw [interface]
  simp only [Stroke.tokens, Stroke.tokens_space, Stroke.tokens_append, List.cons_append,
    List.append_assoc, tokens_lineBreak]
  exact .word (.word (.word (unclosed_extending types (.cons (.inr rfl)
    (Stroke.unclosed_lines Field.unclosed fields (.cons (.inr rfl) later))))))

/-- An exported interface is read from the word for it on. -/
theorem topStatement_interface (reading : Reading) {exported word : Token} {fence : Token}
    (exports : exported.isWord "export" = true) (declares : word.isWord "interface" = true) :
    reading.topStatement ⟨exported :: word :: rest, fence⟩ =
      reading.interfaceStatement exported.start ⟨word :: rest, fence⟩ := by
  obtain ⟨kind, value⟩ : word.kind = .identifier ∧ word.value = "interface" := by
    simpa [Token.isWord] using declares
  rw [reading.topStatement_export exports]
  simp [Reading.exportStatement, Cursor.peek, Cursor.advance, Reading.atFunction, Token.isWord,
    Token.isPunct, kind, value]

/-- What stands between the braces of an interface is its members. -/
theorem interfaceStatement_of_parts (reading : Reading) {word named brace closer : Token}
    {between inner : List Token} {fence : Token} {start : Nat} {bases : List String}
    {members : List Member} (identifies : named.kind = .identifier)
    (head : (⟨between ++ brace :: (inner ++ closer :: rest), fence⟩ : Cursor).peek.isPunct "<" =
      false)
    (extends' : reading.extended ⟨between ++ brace :: (inner ++ closer :: rest), fence⟩ =
      some (bases, ⟨brace :: (inner ++ closer :: rest), fence⟩))
    (opens : brace.isPunct "\x7b" = true) (balanced : Lexer.Balanced inner)
    (closes : closer.isCloser = true)
    (inside : reading.members (inner.length + 1) ⟨inner, closer⟩ = members) :
    reading.interfaceStatement start
        ⟨word :: named :: (between ++ brace :: (inner ++ closer :: rest)), fence⟩ =
      some ([.mk (.interfaceDecl { name := named.value, members, bases }) ⟨start, closer.stop⟩ []],
        ⟨rest, fence⟩) := by
  have enclosed := balanced.enclosed?_closer closes rest
  have first : (⟨word :: named :: (between ++ brace :: (inner ++ closer :: rest)), fence⟩ :
      Cursor).advance.expectIdentifier =
        some (named, ⟨between ++ brace :: (inner ++ closer :: rest), fence⟩) := by
    simp [Cursor.advance, Cursor.expectIdentifier, Cursor.peek, identifies]
  have plain : Extent.typeParameters ⟨between ++ brace :: (inner ++ closer :: rest), fence⟩ =
      some ⟨between ++ brace :: (inner ++ closer :: rest), fence⟩ :=
    if_neg (Bool.eq_false_iff.mp head)
  have braced : (⟨brace :: (inner ++ closer :: rest), fence⟩ : Cursor).expectPunct "\x7b" =
      some (brace, ⟨inner ++ closer :: rest, fence⟩) := if_pos opens
  simp [Reading.interfaceStatement, first, plain, extends', braced, enclosed, inside, Cursor.move]

/-- **An interface is found** as such. -/
theorem statement_interface (step : Nat) (name : PlainName) (types : List (WrittenType false))
    (fields : List Field) : Stroke.Statement (interface step name types fields)
      (.interfaceDecl (interfaceAttributes name types fields)) := by
  refine ⟨phrase_interface, unclosed_interface,
    fun {reading newline offset rest fence} _ closed unclosed stands => ?_⟩
  obtain ⟨past, pastName⟩ : ∃ past, past = offset + 17 + name.text.toList.length := ⟨_, rfl⟩
  obtain ⟨mark, pastBases⟩ : ∃ mark, mark = past + (extendsText types).toList.length + 1 := ⟨_, rfl⟩
  let inner := Stroke.tokens false (mark + 1) (lines step (fields.map Field.strokes))
  obtain ⟨stop, pastFields⟩ : ∃ stop, stop = mark + 1 +
    (Stroke.written (lines step (fields.map Field.strokes))).length + 1 := ⟨_, rfl⟩
  let named : Token := ⟨.identifier, name.text, ⟨offset + 17, past⟩, false⟩
  let brace : Token := ⟨.punctuator, "\x7b", ⟨mark, mark + 1⟩, false⟩
  let closer : Token := ⟨.punctuator, "\x7d", ⟨stop, stop + 1⟩, true⟩
  have parts : Stroke.tokens newline offset (interface step name types fields) ++ rest =
      ⟨.identifier, "export", ⟨offset, offset + 6⟩, newline⟩ ::
        ⟨.identifier, "interface", ⟨offset + 7, offset + 16⟩, false⟩ :: named ::
        (Stroke.tokens false past (extending types) ++ brace :: (inner ++ closer :: rest)) := by
    simp only [interface, Stroke.tokens, Stroke.tokens_space, Stroke.tokens_append,
      tokens_lineBreak, breaks_extending, written_extending, List.cons_append, List.append_assoc]
    subst pastName pastBases pastFields
    rfl
  have whole : Stroke.written (interface step name types fields) =
      ("export interface ".toList ++ name.text.toList) ++ (Stroke.written (extending types) ++
        (" \x7b".toList ++ (Stroke.written (lines step (fields.map Field.strokes)) ++
          "\n\x7d".toList))) := by
    simp [interface, Stroke.written_append]
  have length := congrArg List.length whole
  simp only [List.length_append, written_extending] at length
  rw [whole] at stands
  have basesStand : StandsAt reading.source past (Stroke.written (extending types)) :=
    stands.within _ _ rfl (by simp [pastName]; omega)
  have fieldsStand : StandsAt reading.source (mark + 1)
      (Stroke.written (lines step (fields.map Field.strokes))) :=
    stands.within ("export interface ".toList ++ name.text.toList ++
      Stroke.written (extending types) ++ " \x7b".toList) "\n\x7d".toList
      (by simp only [List.append_assoc])
      (by simp [pastName, pastBases, written_extending]; omega)
  have head : (⟨Stroke.tokens false past (extending types) ++ brace :: (inner ++ closer :: rest),
      fence⟩ : Cursor).peek.isPunct "<" = false := by
    cases types <;> rfl
  refine ⟨⟨offset, stop + 1⟩, [], ?_, rfl, ?_⟩
  · rw [parts, topStatement_interface reading rfl rfl]
    exact interfaceStatement_of_parts reading rfl head
      (extended_strokes reading types rfl basesStand) rfl
      ((Stroke.paired_lines Field.phrase fields).balanced _ _) rfl
      (Field.members_lines reading fields (Nat.lt_succ_self _) fieldsStand)
  · simp [length, pastName, pastBases, pastFields]
    omega

end Interface

end SourceCanvas
