import SourceCanvas.Token.Cursor

/-!
# Extents of what is not taken apart

Bracketed text, type annotations and lists of type arguments are passed over as a whole. A type is
followed by counting brackets and angle brackets, and ends at a stop, at a line break after a token
that completes it, or at the bracket that closes what it stands in.
-/

namespace SourceCanvas

namespace Extent

/-! ## Brackets -/

/-- The closer that brings the count of open brackets to zero, with the tokens before and after. -/
def enclosed? (depth : Nat) : List Token → Option (List Token × Token × List Token)
  | [] => none
  | token :: rest =>
    if token.isOpener then
      (enclosed? (depth + 1) rest).map fun (inner, closer, after) => (token :: inner, closer, after)
    else if token.isCloser then
      if depth = 1 then
        some ([], token, rest)
      else
        (enclosed? (depth - 1) rest).map fun (inner, closer, after) =>
          (token :: inner, closer, after)
    else
      (enclosed? depth rest).map fun (inner, closer, after) => (token :: inner, closer, after)

/-- Reads from an opener to its closer, and gives the closer. -/
def balanced (cursor : Cursor) : Option (Token × Cursor) :=
  (enclosed? 0 cursor.rest).map fun (_, closer, after) => (closer, cursor.move after)

/-! ## Types -/

/-- Tokens after which a type is not finished yet. -/
def typeContinuations : List String := [":", "|", "&", "<", ",", "=>", "(", "[", "?", ".", "\x7b"]

/-- Whether a token completes a type that it ends. -/
def completesType (previous : Option Token) : Bool :=
  match previous with
  | some token => !token.isPunctIn typeContinuations
  | none => false

/-- Where a type may end. -/
structure TypeEnd where
  stops : List String
  /-- whether a brace after a complete type does not belong to it -/
  atBrace : Bool := false

/-- Whether a type outside of all brackets ends before a token. -/
def TypeEnd.endsBefore (ending : TypeEnd) (previous : Option Token) (token : Token) : Bool :=
  token.isPunctIn ending.stops ||
    (ending.atBrace && token.isPunct "\x7b" && completesType previous) ||
    (token.newlineBefore && !token.isPunctIn ["|", "&"] && completesType previous)

/-- The last token of a type, given those read so far, and the tokens after it. -/
def typeRun (ending : TypeEnd) (depth angle : Nat) (previous : Option Token) :
    List Token → Option Token × List Token
  | [] => (previous, [])
  | token :: rest =>
    if depth = 0 && angle = 0 && ending.endsBefore previous token then
      (previous, token :: rest)
    else if token.isOpener then
      typeRun ending (depth + 1) angle (some token) rest
    else if token.isCloser then
      if depth = 0 then (previous, token :: rest)
      else typeRun ending (depth - 1) angle (some token) rest
    else if token.isPunct "<" then
      typeRun ending depth (angle + 1) (some token) rest
    else if token.isAngleCloser then
      typeRun ending depth (angle - token.value.length) (some token) rest
    else
      typeRun ending depth angle (some token) rest

/-- Reads a type, which must not be empty. -/
def type? (cursor : Cursor) (ending : TypeEnd) : Option (Span × Cursor) :=
  match typeRun ending 0 0 none cursor.rest with
  | (some last, rest) => some (⟨cursor.peek.start, last.stop⟩, cursor.move rest)
  | (none, _) => none

/-- The tokens after a list of type parameters. -/
def typeParametersRun (angle : Int) : List Token → Option (List Token)
  | [] => none
  | token :: rest =>
    if token.isPunct "<" then
      typeParametersRun (angle + 1) rest
    else if token.isAngleCloser then
      let angle := angle - token.value.length
      if angle ≤ 0 then some rest else typeParametersRun angle rest
    else
      typeParametersRun angle rest

/-- Reads a list of type parameters if one comes next. -/
def typeParameters (cursor : Cursor) : Option Cursor :=
  if cursor.peek.isPunct "<" then
    (typeParametersRun 0 cursor.rest).map cursor.move
  else
    some cursor

/-- Punctuators that may stand in a list of type arguments. -/
def typeArgumentPuncts : List String :=
  [".", ",", "[", "]", "|", "&", "<", ">", ">>", ">>>", "=>", "(", ")", "\x7b", "\x7d", ":", ";",
    "?"]

/-- The tokens after a list of type arguments, if it is one that the arguments of a call follow. -/
def typeArguments? (depth : Int) : List Token → Option (List Token)
  | [] => none
  | token :: rest =>
    match token.kind with
    | .punctuator =>
      if !typeArgumentPuncts.contains token.value then
        none
      else if token.value = "<" then
        typeArguments? (depth + 1) rest
      else if token.isAngleCloser then
        let depth := depth - token.value.length
        if depth ≤ 0 then
          if depth = 0 && rest.head?.any (·.isPunct "(") then some rest else none
        else
          typeArguments? depth rest
      else
        typeArguments? depth rest
    | .identifier | .string | .number => typeArguments? depth rest
    | _ => none

/-! ## Asserted types -/

/-- The end of a name with points, after its first word. -/
def dottedName (stop : Nat) : List Token → Option (Nat × List Token)
  | dot :: rest =>
    if dot.isPunct "." then
      match rest with
      | name :: rest => if name.kind = .identifier then dottedName name.stop rest else none
      | [] => none
    else
      some (stop, dot :: rest)
  | [] => some (stop, [])

/-- The end of angle brackets. They may go on to the end of the window. -/
def angleRun (depth : Int) (stop : Nat) : List Token → Nat × List Token
  | [] => (stop, [])
  | token :: rest =>
    if token.isPunct "<" then
      angleRun (depth + 1) token.stop rest
    else if token.isAngleCloser then
      let depth := depth - token.value.length
      if depth ≤ 0 then (token.stop, rest) else angleRun depth token.stop rest
    else
      angleRun depth token.stop rest

/-- The end of pairs of empty square brackets. -/
def arrayMarks (stop : Nat) : List Token → Nat × List Token
  | opener :: closer :: rest =>
    if opener.isPunct "[" && closer.isPunct "]" then
      arrayMarks closer.stop rest
    else
      (stop, opener :: closer :: rest)
  | rest => (stop, rest)

/-- Reads the type that an expression is asserted to have, and gives its end. -/
def assertedType (cursor : Cursor) : Option (Nat × Cursor) :=
  if cursor.peek.isWord "const" then
    some (cursor.peek.stop, cursor.advance)
  else do
    let (name, cursor) ← cursor.expectIdentifier
    let (stop, rest) ← dottedName name.stop cursor.rest
    let (stop, rest) :=
      match rest with
      | token :: _ => if token.isPunct "<" then angleRun 0 stop rest else (stop, rest)
      | [] => (stop, [])
    let (stop, rest) := arrayMarks stop rest
    some (stop, cursor.move rest)

end Extent

end SourceCanvas
