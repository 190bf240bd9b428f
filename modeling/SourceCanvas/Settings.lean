import SourceCanvas.Error
import SourceCanvas.Text.Numeral

/-!
# Settings

Every setting has a value given by the caller, else one from the environment, else a default
(`Settings.resolve`). The values found are read by the type of their setting and then checked:
`Settings.ofFields` makes settings of values that have their types already, and
`Settings.ofEnvironment` of texts as well.
-/

namespace SourceCanvas

/-- The direction in which ranks follow each other. -/
inductive Direction where
  | topToBottom
  | leftToRight
  deriving DecidableEq, Repr

/-- The name of a direction. -/
def Direction.name : Direction → String
  | .topToBottom => "TB"
  | .leftToRight => "LR"

/-- The direction with a name. -/
def Direction.ofName? : String → Option Direction
  | "TB" => some .topToBottom
  | "LR" => some .leftToRight
  | _ => none

/-- The settings for reading, writing and layout, and for the collaborators. -/
structure Settings where
  direction : Direction := .topToBottom
  nodeWidth : Number := .decimal 180
  nodeHeight : Number := .decimal 60
  rankSpacing : Number := .decimal 80
  nodeSpacing : Number := .decimal 40
  childPadding : Number := .decimal 20
  indent : Nat := 2
  reclassify : Bool := true
  storeUrl : Option String := none
  storeTimeout : Number := .decimal 10
  databasePath : Option String := none
  compilerPath : Option String := none
  compilerTimeout : Number := .decimal 30

namespace Settings

/-! ## Values -/

/-- The types of value that a setting may have. -/
inductive ValueType where
  | text
  | number
  | whole
  | flag
  /-- a text that may be missing -/
  | textOrNone
  deriving DecidableEq, Repr

/-- The settings by name, in order. -/
def types : List (String × ValueType) :=
  [("layout_direction", .text), ("node_width", .number), ("node_height", .number),
    ("rank_spacing", .number), ("node_spacing", .number), ("child_padding", .number),
    ("indent_size", .whole), ("reclassify_generated_names", .flag), ("store_url", .textOrNone),
    ("store_timeout", .number), ("sqlite_path", .textOrNone), ("tsc_path", .textOrNone),
    ("tsc_timeout", .number)]

/-- The settings as values. -/
def toFields (settings : Settings) : Json.Fields :=
  [("layout_direction", .string settings.direction.name),
    ("node_width", .ofNumber settings.nodeWidth), ("node_height", .ofNumber settings.nodeHeight),
    ("rank_spacing", .ofNumber settings.rankSpacing),
    ("node_spacing", .ofNumber settings.nodeSpacing),
    ("child_padding", .ofNumber settings.childPadding), ("indent_size", .int settings.indent),
    ("reclassify_generated_names", .bool settings.reclassify),
    ("store_url", .ofText? settings.storeUrl), ("store_timeout", .ofNumber settings.storeTimeout),
    ("sqlite_path", .ofText? settings.databasePath), ("tsc_path", .ofText? settings.compilerPath),
    ("tsc_timeout", .ofNumber settings.compilerTimeout)]

/-- The value of a setting, or that of the default settings. -/
def valueOf (values : Json.Fields) (name : String) : Json :=
  (values.get? name).getD (((({} : Settings).toFields).get? name).getD .null)

/-- The text of a setting. -/
def textOf (values : Json.Fields) (name : String) : Except Fault String :=
  match valueOf values name with
  | .string value => .ok value
  | _ => .error (.shape (.wrongType name))

/-- The text of a setting that may be missing. -/
def textOf? (values : Json.Fields) (name : String) : Except Fault (Option String) :=
  match valueOf values name with
  | .string value => .ok (some value)
  | .null => .ok none
  | _ => .error (.shape (.wrongType name))

/-- The number of a setting. -/
def numberOf (values : Json.Fields) (name : String) : Except Fault Number :=
  match (valueOf values name).number? with
  | some value => .ok value
  | none => .error (.shape (.wrongType name))

/-- The whole number of a setting. -/
def wholeOf (values : Json.Fields) (name : String) : Except Fault Int :=
  match valueOf values name with
  | .int value => .ok value
  | _ => .error (.shape (.wrongType name))

/-- The truth value of a setting. -/
def flagOf (values : Json.Fields) (name : String) : Except Fault Bool :=
  match valueOf values name with
  | .bool value => .ok value
  | _ => .error (.shape (.wrongType name))

/-- Makes settings of values by name. The direction is taken in capitals. -/
def ofFields (values : Json.Fields) : Except Fault Settings := do
  match values.names.find? fun name => (types.lookup name).isNone with
  | some name => .error (.shape (.wrongType name))
  | none =>
    let name := Text.toCapitals (← textOf values "layout_direction")
    let nodeWidth ← numberOf values "node_width"
    let nodeHeight ← numberOf values "node_height"
    let rankSpacing ← numberOf values "rank_spacing"
    let nodeSpacing ← numberOf values "node_spacing"
    let childPadding ← numberOf values "child_padding"
    let indent ← wholeOf values "indent_size"
    let reclassify ← flagOf values "reclassify_generated_names"
    let storeUrl ← textOf? values "store_url"
    let storeTimeout ← numberOf values "store_timeout"
    let databasePath ← textOf? values "sqlite_path"
    let compilerPath ← textOf? values "tsc_path"
    let compilerTimeout ← numberOf values "tsc_timeout"
    match Direction.ofName? name with
    | none => .error (.invalid (.unsupportedDirection name))
    | some direction =>
      if indent < 0 then
        .error (.invalid (.negativeIndent indent))
      else
        return { direction, nodeWidth, nodeHeight, rankSpacing, nodeSpacing, childPadding,
                 indent := indent.toNat, reclassify, storeUrl, storeTimeout, databasePath,
                 compilerPath, compilerTimeout }

/-! ## Environment -/

/-- The start of the names that settings have in the environment. -/
def environmentMark : String := "FLOW_SYNC_"

/-- The name that a setting has in the environment. -/
def environmentName (name : String) : String := environmentMark ++ Text.toCapitals name

/-- The value given, else the text from the environment without blanks around it unless it is empty,
else the default. -/
def resolve (value : Json) (environment : Option String) (blank : Json) : Json :=
  if value = .null then
    match Text.trimString (environment.getD "") with
    | "" => blank
    | text => .string text
  else
    value

/-- Texts that are read as true. -/
def trueTexts : List String := ["1", "true", "yes", "on"]

/-- Texts that are read as false. -/
def falseTexts : List String := ["0", "false", "no", "off"]

/-- Reads a truth value. -/
def readFlag? (text : String) : Option Bool :=
  let lowered := (Text.trimString text).map Char.toLower
  if trueTexts.contains lowered then some true
  else if falseTexts.contains lowered then some false
  else none

/-- The value that a text stands for in a setting of a type. -/
def read? (type : ValueType) (text : String) : Option Json :=
  match type with
  | .text | .textOrNone => some (.string text)
  | .number => (Text.readDecimal? text.toList).map .float
  | .whole => (Text.readWhole? text.toList).map .int
  | .flag => (readFlag? text).map .bool

/-- The value of a setting, where a text is read by the type of the setting. -/
def convert (name : String) (type : ValueType) (value : Json) : Except Fault Json :=
  match value with
  | .string text =>
    match read? type text with
    | some value => .ok value
    | none => .error (.invalid (.invalidSetting name (Text.display text)))
  | value => .ok value

/-- Makes settings of values given by the caller, the environment and the defaults. -/
def ofEnvironment (environment : Catalog String) (given : Json.Fields) : Except Fault Settings := do
  let unknown := given.names.filter fun name => (types.lookup name).isNone
  if !unknown.isEmpty then
    .error (.invalid (.unknownSettings (unknown.mergeSort fun a b => a ≤ b)))
  else
    let values ← types.mapM fun (name, type) => do
      let value := resolve ((given.get? name).getD .null)
        (environment.get? (environmentName name)) (valueOf [] name)
      return (name, ← convert name type value)
    ofFields values

/-! ## Collaborators -/

/-- The stores that settings can name. -/
inductive StoreChoice where
  | remote (baseUrl : String) (timeout : Number)
  | table (path : String)

/-- Whether a path names a directory: it ends in a solidus. -/
def isDirectory (path : String) : Bool := path.toList.getLast? = some '/'

/-- The text without the solidi at its end. -/
def dropSolidi (text : String) : String :=
  String.ofList (text.toList.reverse.dropWhile (· = '/')).reverse

/-- The store that the settings name; a remote one comes before a table. -/
def storeChoice (settings : Settings) : Except Fault (Option StoreChoice) :=
  match Text.given? settings.storeUrl, Text.given? settings.databasePath with
  | some url, _ => .ok (some (.remote (dropSolidi url) settings.storeTimeout))
  | none, some path =>
    if isDirectory path then
      .error (.store (.cannotOpen path))
    else
      .ok (some (.table path))
  | none, none => .ok none

end Settings

end SourceCanvas
