import SourceCanvas.Json.Display
import SourceCanvas.Json.Parser
import SourceCanvas.Node.Attributes
import SourceCanvas.Text.Lines

/-!
# Templates

Two kinds of node are written by filling in a longer text: a value shown on the console, and a
request to a service. The readers here recognise such a text and find what was filled in. Where a
text can be cut in several ways, the value of the console is as long as possible, the headers and
the body of a request are as short as possible.
-/

namespace SourceCanvas.Template

open SourceCanvas.Text (isBlank trim)

/-- The text after a literal start. -/
def after? (literal : String) (text : List Char) : Option (List Char) :=
  if literal.toList.isPrefixOf text then some (text.drop literal.length) else none

/-- The text after blanks and a literal. -/
def spaced? (literal : String) (text : List Char) : Option (List Char) :=
  after? literal (text.dropWhile isBlank)

/-! ## The console -/

/-- Whether a text repeats a value, after at least one blank, up to the end of the template. -/
def repeats (value : List Char) (text : List Char) : Bool :=
  (List.range (text.takeWhile isBlank).length).any fun count =>
    let rest := text.drop (count + 1)
    (value ++ [';']).isPrefixOf rest &&
      spaced? "\x7d)()" (rest.drop (value.length + 1)) == some []

/-- Whether a text goes on from a value to the end of the template. -/
def closesConsole (value : List Char) (text : List Char) : Bool :=
  match (after? ");" text).bind (spaced? "return") with
  | some rest => repeats value rest
  | none => false

/-- The method and the value of a console template. -/
def console? (text : List Char) : Option (String × String) := do
  let rest ← after? "(()" text
  let rest ← spaced? "=>" rest
  let rest ← spaced? "\x7b" rest
  let rest ← spaced? "console." rest
  let label ← consoleMethods.find? fun method => (after? (method ++ "(") rest).isSome
  let rest ← after? (label ++ "(") rest
  let length ← (List.range (rest.length + 1)).reverse.find? fun length =>
    closesConsole (rest.take length) (rest.drop length)
  some (label, String.ofList (trim (rest.take length)))

/-! ## Requests -/

/-- The length of a quoted text after its first quote, with its last quote. -/
def quotedLength? : List Char → Option Nat
  | [] => none
  | '\\' :: _ :: rest => (quotedLength? rest).map (· + 2)
  | ['\\'] => none
  | c :: rest => if c = '"' then some 1 else (quotedLength? rest).map (· + 1)

/-- Whether a text is the end of a request. -/
def closesRequest (text : List Char) : Bool :=
  let rest := do
    let rest ← spaced? "\x7d);\nif (!response.ok) \x7b\n" text
    spaced? "throw new Error(`Request failed with status $\x7bresponse.status\x7d`);\n" rest
  rest == some "\x7d\nreturn response.json();".toList

/-- The shortest start of a text after which a request ends. -/
def requestBody? : List Char → Option (List Char)
  | [] => none
  | c :: rest =>
    if (after? ",\n" (c :: rest)).any closesRequest then some []
    else (requestBody? rest).map (c :: ·)

/-- The body of a request, which may be missing, given the text after the headers. -/
def requestEnd? (text : List Char) : Option (Option (List Char)) :=
  match (spaced? "body: " text).bind requestBody? with
  | some body => some (some body)
  | none => if closesRequest text then some none else none

/-- The shortest start of a text that closes the headers, with the body after them. -/
def requestHeaders? : List Char → Option (List Char × Option (List Char))
  | [] => none
  | c :: rest =>
    match (after? "\x7d,\n" (c :: rest)).bind requestEnd? with
    | some body => some (['\x7d'], body)
    | none => (requestHeaders? rest).map fun (headers, body) => (c :: headers, body)

/-- The headers that a text gives, as texts. -/
def headers? (text : List Char) : Option (List (String × String)) :=
  match Json.parse? text with
  | some (.object fields) => some (fields.map fun (key, value) => (key, value.plainText))
  | _ => none

/-- The attributes of a request, given the name and the body of the function that makes it. -/
def request? (name : String) (text : List Char) : Option ApiAttributes := do
  let rest ← after? "const response = await fetch(" text
  let opened ← after? "\"" rest
  let length ← quotedLength? opened
  let endpoint := rest.take (length + 1)
  let rest ← after? ", \x7b\n" (rest.drop (length + 1))
  let rest ← spaced? "method: \"" rest
  let isCapital (c : Char) : Bool := 'A' ≤ c && c ≤ 'Z'
  let method := rest.takeWhile isCapital
  if method.isEmpty then
    none
  let rest ← after? "\",\n" (rest.dropWhile isCapital)
  let rest ← spaced? "headers: " rest
  let rest ← after? "\x7b" rest
  let (headers, body) ← requestHeaders? rest
  let endpoint ← (← Json.parse? endpoint).string?
  let headers ← headers? ('\x7b' :: headers)
  some {
    name, method := String.ofList method, endpoint, headers,
    body := body.map String.ofList }

end SourceCanvas.Template
