import Mathlib.Data.List.Basic
import SourceCanvas.Proofs.Captures

/-!
# Brackets

`Lexer.Balanced` is the language of nested brackets, each closed by one of its own type, and
`Lexer.Leaves` says which brackets a list of tokens leaves open. The stack of `openBrackets` decides
both (`leaves_of_openBrackets`, `Leaves.openBrackets`), and where it fails it has come to the first
closer that the innermost open bracket does not pair with. `Extent.enclosed?` counts brackets of all
types alike. Between the brackets of a text that has tokens this comes to the same closer
(`bracketed_tokenize`), because what lies between two that are paired is balanced.
-/

namespace SourceCanvas

open Extent

namespace Lexer

/-! ## Nested brackets -/

/-- An opening bracket, and a closing one of the same type. -/
structure Pairs (opener closer : Token) : Prop where
  opens : opener.isOpener = true
  closes : closer.isCloser = true
  same : closer.value = closerOf opener.value

/-- Tokens whose brackets are nested, each closed by one of its type. -/
inductive Balanced : List Token → Prop where
  | nil : Balanced []
  | other {token tokens} (opens : ¬token.isOpener = true) (closes : ¬token.isCloser = true)
      (later : Balanced tokens) : Balanced (token :: tokens)
  | pair {opener inner closer tokens} (pairs : Pairs opener closer) (inside : Balanced inner)
      (later : Balanced tokens) : Balanced (opener :: (inner ++ closer :: tokens))

/-- Tokens that leave some brackets open, the innermost first, and whose other brackets are
nested. -/
inductive Leaves : List Token → List Token → Prop where
  | balanced {tokens} (nested : Balanced tokens) : Leaves tokens []
  | opened {before outer opener tokens} (leaves : Leaves before outer)
      (opens : opener.isOpener = true) (nested : Balanced tokens) :
      Leaves (before ++ opener :: tokens) (opener :: outer)

/-- What is wrong with the brackets of tokens: the first closer that the innermost open bracket does
not pair with, or the innermost bracket that is open in the end. -/
inductive Unpaired (tokens : List Token) : LexicalError → Prop where
  | unmatched {before closer after opened} (parts : tokens = before ++ closer :: after)
      (leaves : Leaves before opened) (closes : closer.isCloser = true)
      (apart : ∀ opener ∈ opened.head?, ¬Pairs opener closer) :
      Unpaired tokens ⟨.unmatched closer.value, closer.start⟩
  | unclosed {opener outer} (leaves : Leaves tokens (opener :: outer)) :
      Unpaired tokens ⟨.unclosed opener.value, opener.start⟩

variable {before tokens opened outer left inner behind : List Token} {token opener closer : Token}

theorem not_isOpener_of_isCloser (closes : token.isCloser = true) : ¬token.isOpener = true := by
  intro opens
  have opens := (Token.isPunctIn_iff.mp opens).2
  have closes := (Token.isPunctIn_iff.mp closes).2
  simp only [List.mem_cons, List.not_mem_nil, or_false] at opens closes
  rcases opens with same | same | same <;> rw [same] at closes <;> revert closes <;> decide

theorem Balanced.append (nested : Balanced tokens) (nested' : Balanced behind) :
    Balanced (tokens ++ behind) := by
  induction nested with
  | nil => exact nested'
  | other opens closes later ih => exact .other opens closes ih
  | pair pairs inside later _ ih =>
    rw [List.cons_append, List.append_assoc, List.cons_append]
    exact .pair pairs inside ih

/-! ## The stack -/

/-- A closer takes the bracket that it pairs with off the stack. -/
theorem Pairs.openBrackets (pairs : Pairs opener closer) (outer tokens : List Token) :
    openBrackets (opener :: outer) (closer :: tokens) = openBrackets outer tokens := by
  rw [openBrackets_closer (not_isOpener_of_isCloser pairs.closes) pairs.closes, if_pos pairs.same]

/-- Balanced tokens leave the stack as it is. -/
theorem Balanced.openBrackets (nested : Balanced tokens) (opened after : List Token) :
    openBrackets opened (tokens ++ after) = openBrackets opened after := by
  induction nested generalizing opened after with
  | nil => rfl
  | other opens closes later ih => rw [List.cons_append, openBrackets_other opens closes, ih]
  | pair pairs inside later ih ih' =>
    rw [List.cons_append, List.append_assoc, List.cons_append, openBrackets_opener pairs.opens, ih,
      pairs.openBrackets, ih']

/-- What tokens leave open is on the stack. -/
theorem Leaves.openBrackets (leaves : Leaves tokens opened) (after : List Token) :
    openBrackets [] (tokens ++ after) = openBrackets opened after := by
  induction leaves generalizing after with
  | balanced nested => exact nested.openBrackets [] after
  | opened leaves opens nested ih =>
    rw [List.append_assoc, ih, List.cons_append, openBrackets_opener opens, nested.openBrackets]

namespace Leaves

/-- Balanced tokens open nothing. -/
theorem append (leaves : Leaves before opened) (nested : Balanced tokens) :
    Leaves (before ++ tokens) opened := by
  cases leaves with
  | balanced nested' => exact .balanced (nested'.append nested)
  | opened leaves opens nested' =>
    rw [List.append_assoc, List.cons_append]
    exact .opened leaves opens (nested'.append nested)

theorem push (leaves : Leaves before opened) (opens : token.isOpener = true) :
    Leaves (before ++ [token]) (token :: opened) :=
  .opened leaves opens .nil

/-- A closer takes the innermost open bracket away, with what lies between the two. -/
theorem pop (leaves : Leaves before (token :: opened)) (pairs : Pairs token closer) :
    Leaves (before ++ [closer]) opened := by
  cases leaves with
  | opened leaves opens nested =>
    rw [List.append_assoc, List.cons_append]
    exact leaves.append (.pair pairs nested .nil)

theorem opens (leaves : Leaves before (token :: opened)) : token.isOpener = true := by
  cases leaves with
  | opened leaves opens nested => exact opens

end Leaves

/-- The stack holds what the tokens leave open. -/
theorem leaves_of_openBrackets (leaves : Leaves before opened)
    (matched : openBrackets opened tokens = .ok left) : Leaves (before ++ tokens) left := by
  induction tokens generalizing before opened with
  | nil =>
    cases matched
    rwa [List.append_nil]
  | cons token tokens ih =>
    rw [List.append_cons]
    by_cases opens : token.isOpener = true
    · rw [openBrackets_opener opens] at matched
      exact ih (leaves.push opens) matched
    by_cases closes : token.isCloser = true
    · cases opened with
      | nil =>
        rw [openBrackets.eq_def] at matched
        simp [opens, closes] at matched
      | cons innermost outer =>
        rw [openBrackets_closer opens closes] at matched
        split at matched
        · next same => exact ih (leaves.pop ⟨leaves.opens, closes, same⟩) matched
        · cases matched
    · rw [openBrackets_other opens closes] at matched
      exact ih (leaves.append (.other opens closes .nil)) matched

/-- The stack fails at the first closer that the innermost open bracket does not pair with. -/
theorem unmatched_of_openBrackets (leaves : Leaves before opened)
    (failed : openBrackets opened tokens = .error closer) :
    ∃ between after opened', tokens = between ++ closer :: after ∧
      Leaves (before ++ between) opened' ∧ closer.isCloser = true ∧
      ∀ opener ∈ opened'.head?, ¬Pairs opener closer := by
  induction tokens generalizing before opened with
  | nil => cases failed
  | cons token tokens ih =>
    have later {opened' : List Token} (leaves : Leaves (before ++ [token]) opened')
        (failed : Lexer.openBrackets opened' tokens = .error closer) :
        ∃ between after opened', token :: tokens = between ++ closer :: after ∧
          Leaves (before ++ between) opened' ∧ closer.isCloser = true ∧
          ∀ opener ∈ opened'.head?, ¬Pairs opener closer := by
      obtain ⟨between, after, opened', rfl, leaves, found⟩ := ih leaves failed
      rw [List.append_assoc] at leaves
      exact ⟨token :: between, after, opened', rfl, leaves, found⟩
    by_cases opens : token.isOpener = true
    · rw [openBrackets_opener opens] at failed
      exact later (leaves.push opens) failed
    by_cases closes : token.isCloser = true
    · cases opened with
      | nil =>
        rw [openBrackets.eq_def] at failed
        simp only [opens, closes, Bool.false_eq_true, if_false, if_true] at failed
        cases failed
        exact ⟨[], tokens, [], rfl, by rwa [List.append_nil], closes, by simp⟩
      | cons innermost outer =>
        rw [openBrackets_closer opens closes] at failed
        split at failed
        · next same => exact later (leaves.pop ⟨leaves.opens, closes, same⟩) failed
        · next other =>
          cases failed
          refine ⟨[], tokens, innermost :: outer, rfl, by rwa [List.append_nil], closes, ?_⟩
          rintro opener ⟨⟩ pairs
          exact other pairs.same
    · rw [openBrackets_other opens closes] at failed
      exact later (leaves.append (.other opens closes .nil)) failed

theorem openBrackets_eq_ok : openBrackets [] tokens = .ok left ↔ Leaves tokens left := by
  constructor
  · intro matched
    exact leaves_of_openBrackets (.balanced .nil) matched
  · intro leaves
    have matched := leaves.openBrackets []
    rwa [List.append_nil] at matched

/-- The brackets of tokens are balanced if the stack is empty in the end. -/
theorem openBrackets_eq_nil : openBrackets [] tokens = .ok [] ↔ Balanced tokens := by
  rw [openBrackets_eq_ok]
  constructor
  · intro leaves
    cases leaves with
    | balanced nested => exact nested
  · exact .balanced

/-! ## Counting -/

/-- Counting passes over balanced tokens. -/
theorem Balanced.enclosed? (nested : Balanced tokens) (depth : Nat) (after : List Token) :
    enclosed? (depth + 1) (tokens ++ after) =
      (enclosed? (depth + 1) after).map fun (inner, closer, behind) =>
        (tokens ++ inner, closer, behind) := by
  induction nested generalizing depth after with
  | nil => simp
  | @other token tokens opens closes later ih =>
    rw [List.cons_append, Extent.enclosed?.eq_def]
    simp only [opens, closes, Bool.false_eq_true, if_false, ih, Option.map_map]
    rfl
  | @pair opener inner closer tokens pairs inside later ih ih' =>
    have closes : Extent.enclosed? (depth + 2) (closer :: (tokens ++ after)) =
        (Extent.enclosed? (depth + 1) (tokens ++ after)).map fun (inner, last, behind) =>
          (closer :: inner, last, behind) := by
      rw [Extent.enclosed?.eq_def]
      simp [not_isOpener_of_isCloser pairs.closes, pairs.closes]
    rw [List.cons_append, List.append_assoc, List.cons_append, Extent.enclosed?.eq_def]
    simp only [pairs.opens, if_true, ih, closes, ih', Option.map_map]
    congr 1
    funext found
    obtain ⟨inner', closer', behind'⟩ := found
    simp

/-- The closer behind balanced tokens closes what was open before them, whatever its type. -/
theorem Balanced.enclosed?_closer (nested : Balanced inner) (closes : closer.isCloser = true)
    (behind : List Token) :
    Extent.enclosed? 1 (inner ++ closer :: behind) = some (inner, closer, behind) := by
  rw [nested.enclosed? 0, Extent.enclosed?.eq_def]
  simp [not_isOpener_of_isCloser closes, closes]

/-- From a bracket counting comes to the closer that pairs with it. -/
theorem Pairs.balanced (pairs : Pairs opener closer) (nested : Balanced inner)
    (behind : List Token) (fence : Token) :
    Extent.balanced ⟨opener :: (inner ++ closer :: behind), fence⟩ =
      some (closer, ⟨behind, fence⟩) := by
  have found := nested.enclosed?_closer pairs.closes behind
  rw [Extent.balanced, Extent.enclosed?.eq_def]
  simp [pairs.opens, found, Cursor.move]

/-- Behind tokens that an opener is still open behind, counting comes to a closer if all is closed
in the end. -/
theorem exists_enclosed (matched : openBrackets (opened ++ opener :: outer) tokens = .ok []) :
    ∃ found, enclosed? (opened.length + 1) tokens = some found := by
  induction tokens generalizing opened with
  | nil =>
    rw [openBrackets.eq_def] at matched
    simp at matched
  | cons token tokens ih =>
    rw [Extent.enclosed?.eq_def]
    by_cases opens : token.isOpener = true
    · rw [openBrackets_opener opens, ← List.cons_append] at matched
      obtain ⟨found, same⟩ := ih matched
      simp only [opens, if_true]
      exact ⟨_, by rw [← List.length_cons (a := token), same]; rfl⟩
    by_cases closes : token.isCloser = true
    · cases opened with
      | nil => simp [opens, closes]
      | cons innermost opened =>
        rw [List.cons_append, openBrackets_closer opens closes] at matched
        split at matched
        · obtain ⟨found, same⟩ := ih matched
          simp [opens, closes, same]
        · cases matched
    · rw [openBrackets_other opens closes] at matched
      obtain ⟨found, same⟩ := ih matched
      simp [opens, closes, same]

/-- The bracket that takes an opener off the stack, with the balanced tokens between the two: it is
the one that counting comes to, whatever stands behind it. -/
structure Encloses (before : List Token) (opener : Token) (inner : List Token) (closer : Token) :
    Prop where
  pairs : Pairs opener closer
  inside : Balanced inner
  taken : ∃ outer, openBrackets [] before = .ok outer ∧
    openBrackets [] (before ++ opener :: inner) = .ok (opener :: outer) ∧
    openBrackets [] (before ++ opener :: (inner ++ [closer])) = .ok outer
  counted : ∀ behind fence, Extent.balanced ⟨opener :: (inner ++ closer :: behind), fence⟩ =
    some (closer, ⟨behind, fence⟩)
  counted_inside : ∀ behind,
    enclosed? 1 (inner ++ closer :: behind) = some (inner, closer, behind)

/-- Each opener among balanced tokens is closed. -/
theorem Balanced.encloses (nested : Balanced (before ++ opener :: behind))
    (opens : opener.isOpener = true) :
    ∃ inner closer after, behind = inner ++ closer :: after ∧
      Encloses before opener inner closer := by
  have matched := openBrackets_eq_nil.mpr nested
  obtain ⟨outer, front, matched⟩ := exists_openBrackets matched
  rw [openBrackets_opener opens] at matched
  have enclosed : ∃ found, Extent.enclosed? 1 behind = some found :=
    @exists_enclosed behind [] outer opener matched
  obtain ⟨⟨inner, closer, after⟩, found⟩ := enclosed
  obtain ⟨rfl, closes⟩ := eq_of_enclosed? found
  obtain ⟨inside, -, same⟩ :=
    @openBrackets_enclosed [] outer _ inner after [] opener closer matched found
  replace inside := openBrackets_eq_nil.mp inside
  have pairs : Pairs opener closer := ⟨opens, closes, same⟩
  have leaves := openBrackets_eq_ok.mp front
  have open' : Leaves (before ++ opener :: inner) (opener :: outer) :=
    .opened leaves opens inside
  have taken : Leaves (before ++ opener :: (inner ++ [closer])) outer :=
    leaves.append (.pair pairs inside .nil)
  have encloses : Encloses before opener inner closer := {
    pairs, inside
    taken := ⟨outer, front, openBrackets_eq_ok.mpr open', openBrackets_eq_ok.mpr taken⟩
    counted := pairs.balanced inside
    counted_inside := inside.enclosed?_closer closes }
  exact ⟨inner, closer, after, rfl, encloses⟩

/-- What is wrong with brackets is found by the stack. -/
theorem openBrackets_eq_error : openBrackets [] tokens = .error closer ↔
    ∃ before after opened, tokens = before ++ closer :: after ∧ Leaves before opened ∧
      closer.isCloser = true ∧ ∀ opener ∈ opened.head?, ¬Pairs opener closer := by
  constructor
  · intro failed
    exact unmatched_of_openBrackets (.balanced .nil) failed
  · rintro ⟨before, after, opened, rfl, leaves, closes, apart⟩
    rw [leaves.openBrackets]
    cases opened with
    | nil =>
      rw [openBrackets.eq_def]
      simp [not_isOpener_of_isCloser closes, closes]
    | cons opener outer =>
      rw [openBrackets_closer (not_isOpener_of_isCloser closes) closes, if_neg]
      exact fun same => apart opener rfl ⟨leaves.opens, closes, same⟩

end Lexer

variable {text : String} {tokens found : List Token} {newline : Bool}

/-- The tokens of a text are balanced, and so they are with the one at its end. -/
theorem balanced_of_tokenize (read : tokenize text = .ok tokens) : Lexer.Balanced tokens := by
  obtain ⟨before, newline, rfl, -, matched⟩ := laid_of_tokenize read
  have last : Lexer.Balanced [.atEnd text.length newline] :=
    .other (by simp [Token.isOpener, Token.isPunctIn, Token.atEnd])
      (by simp [Token.isCloser, Token.isPunctIn, Token.atEnd]) .nil
  exact (Lexer.openBrackets_eq_nil.mp matched).append last

/-- The answer for a text whose pieces are well formed is a matter of the brackets among them. -/
theorem tokenize_of_pieces
    (scanned : Lexer.pieces none false text.toList.length 0 text.toList = (found, .ok newline)) :
    tokenize text =
      match Lexer.openBrackets [] found with
      | .error closer => .error ⟨.unmatched closer.value, closer.start⟩
      | .ok (opener :: _) => .error ⟨.unclosed opener.value, opener.start⟩
      | .ok [] => .ok (found ++ [.atEnd text.length newline]) := by
  rw [tokenize, Lexer.tokenize, scanned]
  simp only
  cases Lexer.openBrackets [] found with
  | error closer => rfl
  | ok opened =>
    cases opened with
    | nil => rw [String.length_toList]
    | cons opener outer => rfl

/-- Such a text is refused for the brackets that are not paired. -/
theorem refused_iff
    (scanned : Lexer.pieces none false text.toList.length 0 text.toList = (found, .ok newline))
    (error : LexicalError) : tokenize text = .error error ↔ Lexer.Unpaired found error := by
  rw [tokenize_of_pieces scanned]
  constructor
  · intro refused
    split at refused
    · next closer failed =>
      cases refused
      obtain ⟨before, after, opened, parts, leaves, closes, apart⟩ :=
        Lexer.openBrackets_eq_error.mp failed
      exact .unmatched parts leaves closes apart
    · next opener outer matched =>
      cases refused
      exact .unclosed (Lexer.openBrackets_eq_ok.mp matched)
    · cases refused
  · intro unpaired
    cases unpaired with
    | unmatched parts leaves closes apart =>
      rw [Lexer.openBrackets_eq_error.mpr ⟨_, _, _, parts, leaves, closes, apart⟩]
    | unclosed leaves => rw [Lexer.openBrackets_eq_ok.mpr leaves]

/-- Brackets are not paired where they are not balanced. -/
theorem exists_unpaired_iff : (∃ error, Lexer.Unpaired found error) ↔ ¬Lexer.Balanced found := by
  constructor
  · rintro ⟨error, unpaired⟩ nested
    have matched := Lexer.openBrackets_eq_nil.mpr nested
    cases unpaired with
    | unmatched parts leaves closes apart =>
      rw [Lexer.openBrackets_eq_error.mpr ⟨_, _, _, parts, leaves, closes, apart⟩] at matched
      cases matched
    | unclosed leaves =>
      rw [Lexer.openBrackets_eq_ok.mpr leaves] at matched
      cases matched
  · intro unbalanced
    cases result : Lexer.openBrackets [] found with
    | error closer =>
      obtain ⟨before, after, opened, parts, leaves, closes, apart⟩ :=
        Lexer.openBrackets_eq_error.mp result
      exact ⟨_, .unmatched parts leaves closes apart⟩
    | ok opened =>
      cases opened with
      | nil => exact absurd (Lexer.openBrackets_eq_nil.mp result) unbalanced
      | cons opener outer => exact ⟨_, .unclosed (Lexer.openBrackets_eq_ok.mp result)⟩

/-- **The check of brackets is exact.** Tokens that are given have balanced brackets, and from each
opener among them counting comes to the closer that has taken it off the stack. A text whose pieces
are well formed is refused for the brackets that are not paired, and only then. -/
theorem bracketed_tokenize (text : String) :
    (∀ tokens, tokenize text = .ok tokens → Lexer.Balanced tokens ∧
      ∀ before opener behind, tokens = before ++ opener :: behind → opener.isOpener = true →
        ∃ inner closer after, behind = inner ++ closer :: after ∧
          Lexer.Encloses before opener inner closer) ∧
    ∀ found newline,
      Lexer.pieces none false text.toList.length 0 text.toList = (found, .ok newline) →
        (∀ error, tokenize text = .error error ↔ Lexer.Unpaired found error) ∧
        ((∃ error, Lexer.Unpaired found error) ↔ ¬Lexer.Balanced found) := by
  refine ⟨fun tokens read => ?_, fun found newline scanned => ?_⟩
  · have nested := balanced_of_tokenize read
    refine ⟨nested, ?_⟩
    rintro before opener behind rfl opens
    exact nested.encloses opens
  · exact ⟨refused_iff scanned, exists_unpaired_iff⟩

/-- The tokens of a call whose template and regular expression hold brackets of their own. -/
def hiddenBrackets : List Token :=
  [⟨.identifier, "f", ⟨0, 1⟩, false⟩, ⟨.punctuator, "(", ⟨1, 2⟩, false⟩,
    ⟨.punctuator, "[", ⟨2, 3⟩, false⟩, ⟨.template, "`)`", ⟨3, 6⟩, false⟩,
    ⟨.punctuator, ",", ⟨6, 7⟩, false⟩, ⟨.regex, "/[)]/", ⟨8, 13⟩, false⟩,
    ⟨.punctuator, "]", ⟨13, 14⟩, false⟩, ⟨.punctuator, ")", ⟨22, 23⟩, false⟩, .atEnd 23 false]

/-- The parenthesis of a call is closed behind all brackets that are hidden in it, and a closer of
another type is refused. -/
theorem bracketed_tokenize_call :
    (tokenize "f([`)`, /[)]/] /* ) */)" = .ok hiddenBrackets ∧ Lexer.Balanced hiddenBrackets ∧
      ∃ inner, Lexer.Encloses (hiddenBrackets.take 1) ⟨.punctuator, "(", ⟨1, 2⟩, false⟩ inner
        ⟨.punctuator, ")", ⟨22, 23⟩, false⟩) ∧
    tokenize "f(]" = .error ⟨.unmatched "]", 2⟩ ∧
    Lexer.Unpaired
      [⟨.identifier, "f", ⟨0, 1⟩, false⟩, ⟨.punctuator, "(", ⟨1, 2⟩, false⟩,
        ⟨.punctuator, "]", ⟨2, 3⟩, false⟩]
      ⟨.unmatched "]", 2⟩ := by
  have read : tokenize "f([`)`, /[)]/] /* ) */)" = .ok hiddenBrackets := by decide +kernel
  have refused : tokenize "f(]" = .error ⟨.unmatched "]", 2⟩ := by decide +kernel
  have scanned : Lexer.pieces none false "f(]".toList.length 0 "f(]".toList =
      ([⟨.identifier, "f", ⟨0, 1⟩, false⟩, ⟨.punctuator, "(", ⟨1, 2⟩, false⟩,
        ⟨.punctuator, "]", ⟨2, 3⟩, false⟩], .ok false) := by decide +kernel
  obtain ⟨nested, closed⟩ := (bracketed_tokenize _).1 _ read
  obtain ⟨inner, closer, after, parts, encloses⟩ := closed (hiddenBrackets.take 1)
    ⟨.punctuator, "(", ⟨1, 2⟩, false⟩ (hiddenBrackets.drop 2) rfl (by decide)
  obtain rfl : ⟨.punctuator, ")", ⟨22, 23⟩, false⟩ = closer := by
    -- counting on from the parenthesis ends at the last token but one
    have counted := encloses.counted after (.atEnd 23 false)
    rw [← parts] at counted
    exact (Prod.mk.inj (Option.some.inj counted)).1
  exact ⟨⟨read, nested, inner, encloses⟩, refused,
    (((bracketed_tokenize _).2 _ _ scanned).1 _).mp refused⟩

end SourceCanvas
