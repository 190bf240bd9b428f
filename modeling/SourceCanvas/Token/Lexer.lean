import SourceCanvas.Token.Basic
import SourceCanvas.Text.Display

/-!
# Reading tokens

A text is taken apart into pieces: runs of blanks, comments, and lexemes. `piece` finds the first
piece of a text and `pieces` goes on until the text ends or a piece is malformed. The brackets among
the tokens found are then matched by `openBrackets`. `tokenize` reports the error that comes first
in the text; a bracket that stays open is reported after all others.
-/

namespace SourceCanvas

open SourceCanvas.Text (isWord isDecimal isDigit)

/-- What can be wrong with a text, so that it has no tokens. -/
inductive LexicalCause where
  | unterminatedComment
  | unterminatedString
  | unterminatedTemplate
  | unterminatedSubstitution
  | unexpectedCharacter (char : Char)
  | unclosed (opener : String)
  | unmatched (closer : String)
  deriving DecidableEq, Repr

/-- What is wrong with a text, and where. -/
structure LexicalError where
  cause : LexicalCause
  offset : Nat
  deriving DecidableEq, Repr

/-- The text of an error without its place. -/
def LexicalCause.message : LexicalCause → String
  | .unterminatedComment => "Unterminated block comment"
  | .unterminatedString => "Unterminated string literal"
  | .unterminatedTemplate => "Unterminated template literal"
  | .unterminatedSubstitution => "Unterminated template substitution"
  | .unexpectedCharacter char => "Unexpected character " ++ Text.display (String.singleton char)
  | .unclosed opener => "Unclosed '" ++ opener ++ "'"
  | .unmatched closer => "Unmatched '" ++ closer ++ "'"

/-- The text of an error with its place. -/
def LexicalError.message (error : LexicalError) : String :=
  error.cause.message ++ " (at offset " ++ toString error.offset ++ ")"

namespace Lexer

/-! ## Gaps -/

/-- Characters between tokens. -/
def isSpace (c : Char) : Bool :=
  c = ' ' || (9 ≤ c.val && c.val ≤ 13) || c.val == 0xA0 || c.val == 0xFEFF ||
    c.val == 0x2028 || c.val == 0x2029

/-- Characters of a run of blanks that make the next token start a line. -/
def isNewline (c : Char) : Bool := c = '\n' || c = '\r'

/-- The length of a block comment after its opening, and whether it has a line feed. -/
def commentRest : List Char → Option (Nat × Bool)
  | [] => none
  | '*' :: '/' :: _ => some (2, false)
  | c :: rest => (commentRest rest).map fun (length, newline) => (length + 1, c = '\n' || newline)

/-! ## Words and numbers -/

/-- Characters that a word may start with. -/
def startsWord (c : Char) : Bool := (isWord c && !isDecimal c) || c = '$'

/-- Characters that a word may go on with. -/
def continuesWord (c : Char) : Bool := isWord c || c = '$'

/-- The length of the word at the start of a text, zero if there is none. -/
def wordLength (text : List Char) : Nat :=
  match text with
  | c :: rest => if startsWord c then 1 + (rest.takeWhile continuesWord).length else 0
  | [] => 0

/-- One more if the text goes on with the mark of a big number. -/
def bigMark (length : Nat) (text : List Char) : Nat :=
  if (text.drop length).head? = some 'n' then length + 1 else length

/-- The digits that a number with the given letter after its zero may have. -/
def radixDigit? (letter : Char) : Option (Char → Bool) :=
  match letter with
  | 'x' | 'X' => some fun c =>
      c.isDigit || ('a' ≤ c && c ≤ 'f') || ('A' ≤ c && c ≤ 'F') || c = '_'
  | 'b' | 'B' => some fun c => c = '0' || c = '1' || c = '_'
  | 'o' | 'O' => some fun c => ('0' ≤ c && c ≤ '7') || c = '_'
  | _ => none

/-- The length of a number written with a letter after its zero, zero if there is none. -/
def radixLength (text : List Char) : Nat :=
  match text with
  | '0' :: letter :: rest =>
    match radixDigit? letter with
    | some isRadixDigit =>
      match (rest.takeWhile isRadixDigit).length with
      | 0 => 0
      | count => bigMark (2 + count) text
    | none => 0
  | _ => 0

/-- Digits of a number, and the low lines between them. -/
def isNumberPart (c : Char) : Bool := isDecimal c || c = '_'

/-- The length of an exponent at the start of a text, zero if there is none. -/
def exponentLength (text : List Char) : Nat :=
  match text with
  | e :: rest =>
    if e = 'e' || e = 'E' then
      let signLength := match rest with
        | '+' :: _ | '-' :: _ => 1
        | _ => 0
      match ((rest.drop signLength).takeWhile isDecimal).length with
      | 0 => 0
      | count => 1 + signLength + count
    else
      0
  | [] => 0

/-- The length of the digits and the point of a decimal number, zero if there is none. -/
def mantissaLength (text : List Char) : Nat :=
  match text with
  | '.' :: c :: rest =>
    if isDecimal c then 2 + (rest.takeWhile isNumberPart).length else 0
  | c :: rest =>
    if isDecimal c then
      let whole := 1 + (rest.takeWhile isNumberPart).length
      match text.drop whole with
      | '.' :: fraction => whole + 1 + (fraction.takeWhile isNumberPart).length
      | _ => whole
    else
      0
  | [] => 0

/-- The length of the number at the start of a text, zero if there is none. -/
def numberLength (text : List Char) : Nat :=
  match radixLength text with
  | 0 =>
    match mantissaLength text with
    | 0 => 0
    | mantissa => bigMark (mantissa + exponentLength (text.drop mantissa)) text
  | length => length

/-! ## Strings and templates -/

/-- What a scan of a string or template is inside of. -/
inductive Frame where
  /-- a string with its quote, from an offset on -/
  | quoted (mark : Char) (start : Nat)
  /-- a template from an offset on -/
  | template (start : Nat)
  /-- a substitution, with the count of braces open in it -/
  | code (depth : Nat)
  deriving DecidableEq, Repr

/-- The error when the text ends inside a frame. -/
def Frame.unterminated (frame : Frame) (textEnd : Nat) : LexicalError :=
  match frame with
  | .quoted _ start => ⟨.unterminatedString, start⟩
  | .template start => ⟨.unterminatedTemplate, start⟩
  | .code _ => ⟨.unterminatedSubstitution, textEnd⟩

/-- The offset at which the outermost frame ends. A reverse solidus takes the next character with
it, in a string and in a template; a string ends before a line feed. -/
def scanFrames (offset : Nat) : List Frame → List Char → Except LexicalError Nat
  | [], _ => .ok offset
  | frame :: _, [] => .error (frame.unterminated offset)
  | .quoted mark start :: frames, c :: rest =>
    if c = '\\' then
      match rest with
      | [] => .error ⟨.unterminatedString, start⟩
      | _ :: rest => scanFrames (offset + 2) (.quoted mark start :: frames) rest
    else if c = mark then scanFrames (offset + 1) frames rest
    else if c = '\n' then .error ⟨.unterminatedString, start⟩
    else scanFrames (offset + 1) (.quoted mark start :: frames) rest
  | .template start :: frames, c :: rest =>
    if c = '\\' then
      match rest with
      | [] => .error ⟨.unterminatedTemplate, start⟩
      | _ :: rest => scanFrames (offset + 2) (.template start :: frames) rest
    else if c = '`' then scanFrames (offset + 1) frames rest
    else if c = '$' then
      match rest with
      | '\x7b' :: rest => scanFrames (offset + 2) (.code 0 :: .template start :: frames) rest
      | rest => scanFrames (offset + 1) (.template start :: frames) rest
    else scanFrames (offset + 1) (.template start :: frames) rest
  | .code depth :: frames, c :: rest =>
    if c = '"' || c = '\'' then
      scanFrames (offset + 1) (.quoted c offset :: .code depth :: frames) rest
    else if c = '`' then
      scanFrames (offset + 1) (.template offset :: .code depth :: frames) rest
    else if c = '\x7b' then scanFrames (offset + 1) (.code (depth + 1) :: frames) rest
    else if c = '\x7d' then
      match depth with
      | 0 => scanFrames (offset + 1) frames rest
      | depth + 1 => scanFrames (offset + 1) (.code depth :: frames) rest
    else scanFrames (offset + 1) (.code depth :: frames) rest

/-! ## Regular expressions -/

/-- Words after which a solidus starts a regular expression. -/
def regexPreceders : List String :=
  ["return", "typeof", "case", "in", "of", "new", "delete", "void", "throw", "else", "do", "yield",
    "await", "instanceof"]

/-- Whether a solidus after the given token starts a regular expression and is no division. -/
def regexAllowed (previous : Option Token) : Bool :=
  match previous with
  | none => true
  | some token =>
    match token.kind with
    | .punctuator => !token.isPunctIn [")", "]", "\x7d", "++", "--"]
    | .identifier => regexPreceders.contains token.value
    | _ => false

/-- The length of a regular expression after its first solidus, with the flags, or nothing where
the line ends before it does. -/
def regexRest (inClass : Bool) : List Char → Option Nat
  | [] => none
  | '\\' :: _ :: rest => (regexRest inClass rest).map (· + 2)
  | ['\\'] => none
  | c :: rest =>
    if c = '\n' then none
    else if c = '[' then (regexRest true rest).map (· + 1)
    else if c = ']' then (regexRest false rest).map (· + 1)
    else if c = '/' && !inClass then some (1 + wordLength rest)
    else (regexRest inClass rest).map (· + 1)

/-- The length of the regular expression at the start of a text. Two solidi are none. -/
def regexLength? (text : List Char) : Option Nat :=
  match text with
  | '/' :: '/' :: _ => none
  | '/' :: rest => (regexRest false rest).map (· + 1)
  | _ => none

/-! ## Punctuators -/

/-- The punctuators, a longer one before its beginnings. -/
def punctuators : List String :=
  [">>>=",
    "...", "===", "!==", "**=", "<<=", ">>=", ">>>", "&&=", "||=", "??=",
    "=>", "==", "!=", "<=", ">=", "&&", "||", "??", "?.", "++", "--", "+=", "-=",
    "*=", "/=", "%=", "&=", "|=", "^=", "**", "<<", ">>",
    "\x7b", "\x7d", "(", ")", "[", "]", ";", ",", ".", "<", ">", "+", "-", "*", "/",
    "%", "&", "|", "^", "!", "~", "?", ":", "=", "@", "#"]

/-- The length of the punctuator at the start of a text, zero if there is none. -/
def punctuatorLength (text : List Char) : Nat :=
  match punctuators.find? fun mark => mark.toList.isPrefixOf text with
  | some mark => mark.length
  | none => 0

/-! ## Pieces -/

/-- A piece of a text: its length, and what it is. -/
inductive Piece where
  /-- blanks or a comment -/
  | gap (length : Nat) (newline : Bool)
  /-- the text of a token -/
  | lexeme (length : Nat) (kind : TokenKind)
  deriving DecidableEq, Repr

/-- The lexeme that a string or template is. -/
def framed (kind : TokenKind) (offset : Nat) (frame : Frame) (rest : List Char) :
    Except LexicalError Piece := do
  let stop ← scanFrames (offset + 1) [frame] rest
  return .lexeme (stop - offset) kind

/-- The lexeme of a text that starts with none of the marks of comments, strings and regular
expressions: a number, a word or a punctuator. -/
def plainPiece (offset : Nat) (first : Char) (text : List Char) : Except LexicalError Piece :=
  let number := if isDigit first || first = '.' then numberLength text else 0
  if number ≠ 0 then .ok (.lexeme number .number)
  else if wordLength text ≠ 0 then .ok (.lexeme (wordLength text) .identifier)
  else if punctuatorLength text ≠ 0 then .ok (.lexeme (punctuatorLength text) .punctuator)
  else .error ⟨.unexpectedCharacter first, offset⟩

/-- The first piece of a nonempty text, which lies at an offset after a token. -/
def piece (previous : Option Token) (offset : Nat) (first : Char) (rest : List Char) :
    Except LexicalError Piece :=
  let text := first :: rest
  if isSpace first then
    let run := text.takeWhile isSpace
    .ok (.gap run.length (run.any isNewline))
  else if "//".toList.isPrefixOf text then
    .ok (.gap (text.takeWhile (· ≠ '\n')).length false)
  else if "/*".toList.isPrefixOf text then
    match commentRest (text.drop 2) with
    | some (length, newline) => .ok (.gap (length + 2) newline)
    | none => .error ⟨.unterminatedComment, offset⟩
  else if first = '"' || first = '\'' then
    framed .string offset (.quoted first offset) rest
  else if first = '`' then
    framed .template offset (.template offset) rest
  else if first = '/' && regexAllowed previous then
    match regexLength? text with
    | some length => .ok (.lexeme length .regex)
    | none => .ok (.lexeme (punctuatorLength text) .punctuator)
  else
    plainPiece offset first text

/-- The tokens of a text as far as its pieces are well formed, with what stopped the reading: an
error, or the end of the text and whether a line break comes just before it. Fuel bounds the count
of pieces. -/
def pieces (previous : Option Token) (newline : Bool) :
    Nat → Nat → List Char → List Token × Except LexicalError Bool
  | _, _, [] => ([], .ok newline)
  | 0, _, _ => ([], .ok newline)
  | fuel + 1, offset, first :: rest =>
    match piece previous offset first rest with
    | .error error => ([], .error error)
    | .ok (.gap length newline') =>
      pieces previous (newline || newline') fuel (offset + length) ((first :: rest).drop length)
    | .ok (.lexeme length kind) =>
      let value := String.ofList ((first :: rest).take length)
      let token : Token := ⟨kind, value, ⟨offset, offset + length⟩, newline⟩
      let (tokens, outcome) :=
        pieces (some token) false fuel (offset + length) ((first :: rest).drop length)
      (token :: tokens, outcome)

/-! ## Brackets -/

/-- The bracket that closes an opener. -/
def closerOf (opener : String) : String :=
  match opener with
  | "(" => ")"
  | "[" => "]"
  | _ => "\x7d"

/-- The brackets still open after a list of tokens, the innermost first, or the first closer that
does not match the innermost open one. -/
def openBrackets : List Token → List Token → Except Token (List Token)
  | opened, [] => .ok opened
  | opened, token :: tokens =>
    if token.isOpener then
      openBrackets (token :: opened) tokens
    else if token.isCloser then
      match opened with
      | [] => .error token
      | opener :: outer =>
        if token.value = closerOf opener.value then openBrackets outer tokens else .error token
    else
      openBrackets opened tokens

/-- The tokens of a text with the one at its end, or the first error in it. -/
def tokenize (text : List Char) : Except LexicalError (List Token) :=
  let (tokens, outcome) := pieces none false text.length 0 text
  match openBrackets [] tokens with
  | .error token => .error ⟨.unmatched token.value, token.start⟩
  | .ok opened =>
    match outcome, opened with
    | .error error, _ => .error error
    | .ok _, opener :: _ => .error ⟨.unclosed opener.value, opener.start⟩
    | .ok newline, [] => .ok (tokens ++ [.atEnd text.length newline])

end Lexer

/-- The tokens of a source text. -/
def tokenize (text : String) : Except LexicalError (List Token) := Lexer.tokenize text.toList

end SourceCanvas
