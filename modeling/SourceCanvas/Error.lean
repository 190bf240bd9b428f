import SourceCanvas.Token.Lexer
import SourceCanvas.Json.Basic

/-!
# Errors

Every way in which an operation of the library can fail is a constructor of `Fault`, by its cause.
`Fault.message` words those causes that a user gets to read, and `Problem.details` and
`Failure.details` give the names that belong to them.
-/

namespace SourceCanvas

/-! ## Problems -/

/-- An invariant that a list of nodes, a graph or a set of settings breaks. -/
inductive Problem where
  /-- a node of a list whose parent is not in the list -/
  | orphanNode (node parent : String)
  /-- a node of a graph whose parent is not in the graph -/
  | danglingParent (node parent : String)
  /-- an edge that starts at no node of the graph -/
  | missingSource (edge source : String)
  /-- an edge that ends at no node of the graph -/
  | missingTarget (edge target : String)
  /-- attributes that a kind of node does not have -/
  | unknownAttributes (kind node : String) (names : List String)
  /-- a direction of layout that does not exist -/
  | unsupportedDirection (direction : String)
  /-- an indentation below zero -/
  | negativeIndent (size : Int)
  /-- settings that do not exist -/
  | unknownSettings (names : List String)
  /-- a setting whose text cannot be read, with the text as messages show it -/
  | invalidSetting (name shown : String)

/-- The text of a problem. -/
def Problem.message : Problem → String
  | .orphanNode node parent | .danglingParent node parent =>
    "Node " ++ node ++ " references missing parent " ++ parent
  | .missingSource _ source => "Edge references missing source node: " ++ source
  | .missingTarget _ target => "Edge references missing target node: " ++ target
  | .unknownAttributes kind _ names =>
    "Unknown " ++ kind ++ " attribute(s): " ++ ", ".intercalate names
  | .unsupportedDirection direction => "Unsupported layout direction: " ++ direction
  | .negativeIndent _ => "indent_size must not be negative"
  | .unknownSettings names => "Unknown setting(s): " ++ ", ".intercalate names
  | .invalidSetting name shown => "Invalid value for " ++ name ++ ": " ++ shown

/-- What a problem is about. -/
def Problem.details : Problem → Json.Fields
  | .orphanNode node parent => [("node_id", .string node), ("parent_id", .string parent)]
  | .danglingParent node _ => [("node_id", .string node)]
  | .missingSource edge _ | .missingTarget edge _ => [("edge_id", .string edge)]
  | .unknownAttributes _ node names =>
    [("node_id", .string node), ("fields", .array (names.map .string))]
  | .unsupportedDirection direction => [("layout_direction", .string direction)]
  | .negativeIndent size => [("indent_size", .int size)]
  | .unknownSettings _ => []
  | .invalidSetting name _ => [("setting", .string name)]

/-! ## Failures of collaborators -/

/-- The helpers outside the library. -/
inductive Collaborator where
  | persistence
  | diagnostics
  | layout
  deriving DecidableEq, Repr

/-- The name of a collaborator. -/
def Collaborator.name : Collaborator → String
  | .persistence => "persistence"
  | .diagnostics => "diagnostics"
  | .layout => "layout"

/-- Why a collaborator failed. -/
inductive FailureCause where
  /-- a row without a value in a column that needs one -/
  | missingValue (table column : String)
  /-- a database file that cannot be opened -/
  | cannotOpen (path : String)
  /-- a remote call with the reason that was given -/
  | callFailed (function reason : String)
  /-- a remote call whose reply is no object, with the reply as messages show it -/
  | unexpectedReply (function shown : String)
  /-- no compiler is known -/
  | compilerMissing
  /-- the compiler took longer than the given count of seconds -/
  | compilerTimeout (seconds : String)
  /-- the compiler could not be started -/
  | compilerNotRun (reason : String)
  /-- any other reason -/
  | because (reason : String)

/-- The text of a cause. -/
def FailureCause.message : FailureCause → String
  | .missingValue table column =>
    "Flow store query failed: NOT NULL constraint failed: " ++ table ++ "." ++ column
  | .cannotOpen path =>
    "Cannot open flow database " ++ path ++ ": unable to open database file"
  | .callFailed function reason => "Flow store call " ++ function ++ " failed: " ++ reason
  | .unexpectedReply function shown =>
    "Flow store call " ++ function ++ " failed: unexpected response " ++ shown
  | .compilerMissing => "TypeScript compiler (tsc) not found on PATH"
  | .compilerTimeout seconds => "tsc timed out after " ++ seconds ++ "s"
  | .compilerNotRun reason => "Could not run tsc: " ++ reason
  | .because reason => reason

/-- A collaborator that failed, and why. -/
structure Failure where
  collaborator : Collaborator
  cause : FailureCause

/-- Which collaborator failed. -/
def Failure.details (failure : Failure) : Json.Fields :=
  [("collaborator", .string failure.collaborator.name)]

/-! ## Faults -/

/-- A value that does not have the form its place asks for. -/
inductive ShapeCause where
  /-- a field that has to be there is not -/
  | missingField (name : String)
  /-- a value of the wrong type -/
  | wrongType (name : String)
  /-- a source range that does not have two ends -/
  | rangeEnds
  /-- an element that is no object where one has to be -/
  | notObject
  /-- a kind of literal that does not exist -/
  | unknownLiteralKind
  /-- a header that does not have two parts -/
  | headerParts
  /-- an index written with digits that are not decimal -/
  | indexDigits
  /-- a key or a node that has to be there is not -/
  | missingKey (key : String)
  deriving DecidableEq, Repr

/-- Whatever can make an operation fail. -/
inductive Fault where
  | lexical (error : LexicalError)
  | invalid (problem : Problem)
  | collaborator (failure : Failure)
  | shape (cause : ShapeCause)

/-- The text of a fault. Values of the wrong form have none. -/
def Fault.message : Fault → String
  | .lexical error => error.message
  | .invalid problem => problem.message
  | .collaborator failure => failure.cause.message
  | .shape _ => ""

/-- A failure of the store. -/
def Fault.store (cause : FailureCause) : Fault := .collaborator ⟨.persistence, cause⟩

/-- A failure of the diagnostics. -/
def Fault.diagnostics (cause : FailureCause) : Fault := .collaborator ⟨.diagnostics, cause⟩

end SourceCanvas
