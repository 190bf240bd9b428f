import SourceCanvas.Error
import SourceCanvas.Json.Display
import SourceCanvas.Node.Basic
import SourceCanvas.Settings
import SourceCanvas.Text.Lines

/-!
# Diagnostics

A diagnostic is a message at an offset of a text. It comes from the reading of tokens
(`Diagnostic.ofText`) or from the report of a compiler (`Diagnostic.ofReport`), whose lines name a
line and a column. `Diagnostic.byNode` hands each diagnostic to the first node whose span contains
it, which is the outermost one where nodes come before those inside them.
-/

namespace SourceCanvas

/-- How bad what a diagnostic tells is. -/
inductive Severity where
  | error
  | warning
  | info
  deriving DecidableEq, Repr

/-- The name of a severity. -/
def Severity.name : Severity → String
  | .error => "error"
  | .warning => "warning"
  | .info => "info"

/-- The severity with a name. -/
def Severity.ofName? : String → Option Severity
  | "error" => some .error
  | "warning" => some .warning
  | "info" => some .info
  | _ => none

/-- A message about a text. The offset of a report may lie just before the text. -/
structure Diagnostic where
  offset : Int
  message : String
  severity : Severity := .error
  code : Option String := none
  deriving DecidableEq, Repr

namespace Diagnostic

/-- The first error in the tokens of a text. -/
def ofText (text : String) : List Diagnostic :=
  match tokenize text with
  | .ok _ => []
  | .error error => [{ offset := error.offset, message := error.cause.message }]

/-! ## Reports -/

/-- A line of a report that starts a diagnostic. -/
structure ReportLine where
  line : List Char
  column : List Char
  severity : Severity
  code : String
  message : String

/-- The words of a report for the severities. -/
def severityWords : List (String × Severity) :=
  [("error", .error), ("warning", .warning), ("message", .info)]

/-- The digits at the start of a text and the text after a mark that follows them. -/
def digitsBefore? (mark : String) (text : List Char) : Option (List Char × List Char) :=
  let digits := text.takeWhile Text.isDecimal
  let rest := text.dropWhile Text.isDecimal
  if !digits.isEmpty && mark.toList.isPrefixOf rest then
    some (digits, rest.drop mark.length)
  else
    none

/-- Reads what comes after the name of the file, from the parenthesis on. -/
def reportPlace? (text : List Char) : Option ReportLine :=
  match text with
  | '(' :: rest => do
    let (line, rest) ← digitsBefore? "," rest
    let (column, rest) ← digitsBefore? "): " rest
    let (word, severity) ← severityWords.find? fun (word, _) =>
      (word.toList ++ [' ', 'T', 'S']).isPrefixOf rest
    let rest := rest.drop (word.length + 3)
    let (code, message) ← digitsBefore? ": " rest
    some ⟨line, column, severity, "TS" ++ String.ofList code, String.ofList message⟩
  | _ => none

/-- Reads a line of a report: the name of a file, which is as short as possible, and the rest. -/
def reportLine? : List Char → Option ReportLine
  | [] => none
  | _ :: rest =>
    match reportPlace? rest with
    | some found => some found
    | none => reportLine? rest

/-- The offset of a place in a text: lines beyond the last one count as the last one, and columns
end at the end of the text. -/
def placeOffset (text : List Char) (line column : Int) : Int :=
  let starts := Text.lineOffsets text
  let index := min (line - 1) (starts.length - 1)
  min (starts.getD index.toNat 0 + column - 1) text.length

/-- The diagnostic of a line of a report on a text. -/
def ofReportLine (text : List Char) (found : ReportLine) : Except Fault Diagnostic :=
  match Text.readWhole? found.line, Text.readWhole? found.column with
  | some line, some column =>
    .ok {
      offset := placeOffset text line column
      message := found.message
      severity := found.severity
      code := some found.code }
  | _, _ => .error (.shape .indexDigits)

/-- Adds a line to the message of the last diagnostic. -/
def continueLast (found : List Diagnostic) (line : List Char) : List Diagnostic :=
  match found.getLast? with
  | some last =>
    found.dropLast ++
      [{ last with message := last.message ++ "\n" ++ String.ofList (Text.trim line) }]
  | none => found

/-- Takes one more line of a report on a text into account. An indented line goes on with the
message before it. -/
def addReportLine (text : List Char) (found : List Diagnostic) (line : List Char) :
    Except Fault (List Diagnostic) :=
  match reportLine? (Text.trim line) with
  | some entry => do return found ++ [← ofReportLine text entry]
  | none => .ok (if line.head? = some ' ' then continueLast found line else found)

/-- The diagnostics of a report on a text. -/
def ofReport (report text : String) : Except Fault (List Diagnostic) :=
  (Text.reportLines report.toList).foldlM (addReportLine text.toList) []

/-! ## Nodes -/

/-- The diagnostics by the ids of the nodes they belong to. -/
def byNode (diagnostics : List Diagnostic) (nodes : List Node) : Catalog (List Diagnostic) :=
  diagnostics.foldl
    (fun found diagnostic =>
      match nodes.find? fun node => node.span.any (·.contains diagnostic.offset) with
      | some node => found.gather node.id diagnostic
      | none => found)
    []

end Diagnostic

/-! ## Compilers -/

/-- How the run of a compiler ended. -/
inductive CompilerOutcome where
  | finished (report : String)
  | timedOut
  | notStarted (reason : String)

/-- A compiler that can be asked about a text, and how many seconds it has for the answer. -/
structure Compiler where
  path : String
  timeout : Number

namespace Compiler

/-- The seconds that a compiler has where nothing else is said. -/
def defaultTimeout : Number := .whole 30

/-- The compiler at a path, or else the one that is found; a timeout of zero is not counted. -/
def find? (path found : Option String) (timeout : Option Number) : Option Compiler :=
  let timeout := match timeout with
    | some timeout => if timeout.isZero then defaultTimeout else timeout
    | none => defaultTimeout
  ((Text.given? path).or (Text.given? found)).map fun path => { path, timeout }

/-- The compiler that the settings name. -/
def ofSettings? (settings : Settings) : Option Compiler :=
  match Text.given? settings.compilerPath with
  | some path => find? (some path) none (some settings.compilerTimeout)
  | none => none

/-- The words that start a compiler on a file. -/
def command (compiler : Compiler) (file : String) : List String :=
  [compiler.path, "--noEmit", "--pretty", "false", "--target", "es2020", file]

/-- The diagnostics that a compiler gives for a text, given how its run ended. -/
def diagnose (compiler : Compiler) (outcome : CompilerOutcome) (text : String) :
    Except Fault (List Diagnostic) :=
  match outcome with
  | .finished report => Diagnostic.ofReport report text
  | .timedOut => .error (.diagnostics (.compilerTimeout compiler.timeout.display))
  | .notStarted reason => .error (.diagnostics (.compilerNotRun reason))

end Compiler

end SourceCanvas
