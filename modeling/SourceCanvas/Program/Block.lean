import SourceCanvas.Json.Printer
import SourceCanvas.Node.Naming
import SourceCanvas.Text.Display
import SourceCanvas.Text.Quoted

/-!
# Blocks

The block of a node is its text in a program. Declarations are written out; an expression is bound
to its name; and where operands are missing, or the kind is unknown, a comment stands for the node.
The body of a function is its captured text, or else made of what is known about the nodes below it.
-/

namespace SourceCanvas

open Text (given? nonempty?)

/-! ## Parts -/

/-- A line moved to the right by a count of steps. An empty line stays empty. -/
def indented (step count : Nat) (line : String) : String :=
  if line = "" then line else String.ofList (List.replicate (count * step) ' ') ++ line

/-- A text, or another one where it is empty. -/
def orElse (text other : String) : String := if text = "" then other else text

/-- Lines put below each other. -/
def unlines (lines : List String) : String := "\n".intercalate lines

/-- Entries in braces. -/
def braced (entries : List String) : String :=
  if entries.isEmpty then "\x7b\x7d" else "\x7b " ++ ", ".intercalate entries ++ " \x7d"

/-- The text of a literal as an expression. -/
def LiteralAttributes.text (literal : LiteralAttributes) : String :=
  match literal.kind with
  | .string => Text.quote literal.value
  | _ => orElse literal.value "undefined"

/-- The declaration of a variable. -/
def VariableAttributes.declaration (declared : VariableAttributes) : String :=
  let type := match given? declared.declaredType with
    | some type => ": " ++ type
    | none => ""
  let initializer := (given? declared.initializer).getD "undefined"
  orElse declared.keyword "const" ++ " " ++ declared.name ++ type ++ " = " ++ initializer ++ ";"

/-! ## Declarations -/

/-- The line of a member. -/
def Member.line (member : Member) : String :=
  member.name ++ (if member.optional then "?" else "") ++ ": " ++ orElse member.type "any" ++ ";"

/-- The block of an interface. -/
def InterfaceAttributes.block (step : Nat) (interface : InterfaceAttributes) : String :=
  let bases :=
    if interface.bases.isEmpty then "" else " extends " ++ ", ".intercalate interface.bases
  unlines (("export interface " ++ interface.name ++ bases ++ " \x7b") ::
    interface.members.map (fun member => indented step 1 member.line) ++ ["\x7d"])

/-- The attributes of a node of a known kind; a payload is read as that of the kind. -/
def Node.attributes? (node : Node) : Except Fault (Option Attributes) :=
  match node.content with
  | .typed attributes => .ok (some attributes)
  | .raw kind payload =>
    match NodeKind.ofName? kind with
    | some kind => some <$> Attributes.ofFields kind payload
    | none => .ok none

/-- The operation that the first fully connected one of some nodes stands for. -/
def firstOperation? : List Node → Except Fault (Option String)
  | [] => .ok none
  | child :: others => do
    match ← child.attributes? with
    | some (.binaryOp operation) =>
      match given? operation.left, given? operation.right with
      | some left, some right => .ok (some (left ++ " " ++ operation.operator ++ " " ++ right))
      | _, _ => firstOperation? others
    | _ => firstOperation? others

/-- The declarations of the variables among some nodes, as far as their names are not taken. -/
def localDeclarations (taken : List String) : List Node → Except Fault (List String)
  | [] => .ok []
  | child :: others => do
    match ← child.attributes? with
    | some (.variableDecl declared) =>
      if declared.name = "" || taken.contains declared.name then
        localDeclarations taken others
      else
        return declared.declaration :: (← localDeclarations (declared.name :: taken) others)
    | _ => localDeclarations taken others

/-- The line that stands in a body that nothing is known about. -/
def placeholderBody : String := "// TODO: implement function body"

/-- The lines of the body of a function with the given nodes below it: the captured text, or the
first operation, or the sum of the first two parameters, or the variables. -/
def FunctionAttributes.bodyLines (function : FunctionAttributes) (children : List Node) :
    Except Fault (List String) :=
  match function.body.filter fun body => !Text.isBlankText body.toList with
  | some body => .ok ((Text.split '\n' body.toList).map String.ofList)
  | none => do
    match ← firstOperation? children with
    | some operation => return ["return " ++ operation ++ ";"]
    | none =>
      match function.parameters with
      | first :: second :: _ => return ["return " ++ first.name ++ " + " ++ second.name ++ ";"]
      | parameters =>
        return (← localDeclarations (parameters.map Parameter.name) children) ++ [placeholderBody]

/-- The line that a function starts with. -/
def FunctionAttributes.header (function : FunctionAttributes) : String :=
  let parameters := ", ".intercalate (function.parameters.map Parameter.render)
  let returnType := match given? function.returnType with
    | some type => ": " ++ type
    | none => ""
  "export " ++ (if function.isAsync then "async " else "") ++ "function " ++
    function.name ++ "(" ++ parameters ++ ")" ++ returnType ++ " \x7b"

/-- The block of a function. -/
def FunctionAttributes.block (step : Nat) (function : FunctionAttributes) (children : List Node) :
    Except Fault String := do
  let lines ← function.bodyLines children
  return unlines (function.header :: lines.map (indented step 1) ++ ["\x7d"])

/-- The block of a request. -/
def ApiAttributes.block (step : Nat) (api : ApiAttributes) : String :=
  let headers := Json.object (Catalog.ofList (api.headers.map fun (key, value) =>
    (key, .string value)))
  let body := match given? api.body with
    | some body => [indented step 2 ("body: " ++ body ++ ",")]
    | none => []
  let fetch := "const response = await fetch(" ++ Json.renderString api.endpoint ++ ", \x7b"
  unlines (
    ["export async function " ++ orElse api.name "fetchData" ++ "() \x7b",
      indented step 1 fetch,
      indented step 2 ("method: " ++ Json.renderString (orElse api.method "GET") ++ ","),
      indented step 2 ("headers: " ++ headers.render ++ ",")] ++
    body ++
    [indented step 1 "\x7d);",
      indented step 1 "if (!response.ok) \x7b",
      indented step 2
        "throw new Error(`Request failed with status $\x7bresponse.status\x7d`);",
      indented step 1 "\x7d",
      indented step 1 "return response.json();",
      "\x7d"])

/-- The block of an import. -/
def ImportAttributes.block (imported : ImportAttributes) : String :=
  let names := match given? imported.wholeName with
    | some name => ["* as " ++ name]
    | none => if imported.named.isEmpty then [] else [braced imported.named]
  let clauses := (given? imported.defaultName).toList ++ names
  if clauses.isEmpty then
    "import " ++ Text.quote imported.source ++ ";"
  else
    "import " ++ (if imported.typeOnly then "type " else "") ++ ", ".intercalate clauses ++
      " from " ++ Text.quote imported.source ++ ";"

/-- The block of an export. -/
def ExportAttributes.block (exported : ExportAttributes) : String :=
  let source := match given? exported.source with
    | some source => " from " ++ Text.quote source
    | none => ""
  match given? exported.defaultValue with
  | some value => "export default " ++ value ++ ";"
  | none =>
    if exported.isStar then
      let newName := match given? exported.wholeName with
        | some name => " as " ++ name
        | none => ""
      "export *" ++ newName ++ source ++ ";"
    else
      "export " ++ braced exported.named ++ source ++ ";"

/-! ## Expressions -/

/-- The expression of a value that is shown on the console. -/
def ConsoleAttributes.expression (console : ConsoleAttributes) : String :=
  let method := if consoleMethods.contains console.label then console.label else "log"
  let value := (given? console.value).getD "undefined"
  "(() => \x7b console." ++ method ++ "(" ++ value ++ "); return " ++ value ++ "; \x7d)()"

/-- The entry of a property with a key. -/
def Property.entry (property : Property) : String :=
  match given? property.value with
  | some value => property.key ++ ": " ++ value
  | none => property.key

/-- The expression of an object. -/
def ObjectAttributes.expression (object : ObjectAttributes) : String :=
  braced ((object.properties.filter fun property => property.key != "").map Property.entry)

/-- The declaration that binds an expression to a name. -/
def bound (name expression : String) : String :=
  "export const " ++ name ++ " = " ++ expression ++ ";"

/-- The comment for an expression whose operands are missing. -/
def notConnected (what name : String) : String := "// " ++ what ++ " " ++ name ++
  " is not fully connected"

/-- The block that binds an expression to a name, or the comment where operands are missing. -/
def Attributes.expressionBlock (name : String) : Attributes → String
  | .literal a => bound name a.text
  | .binaryOp a =>
    match given? a.left, given? a.right with
    | some left, some right => bound name (left ++ " " ++ a.operator ++ " " ++ right)
    | _, _ => notConnected ("Operation " ++ Text.display a.operator) name
  | .call a =>
    match given? a.function with
    | some function => bound name (function ++ "(" ++ ", ".intercalate a.args ++ ")")
    | none => notConnected "Call" name
  | .propertyAccess a =>
    match given? a.object, nonempty? a.property with
    | some target, some property => bound name ("(" ++ target ++ ")." ++ property)
    | _, _ => notConnected "Property access" name
  | .conditional a =>
    match given? a.test, given? a.whenTrue, given? a.whenFalse with
    | some test, some whenTrue, some whenFalse =>
      bound name (test ++ " ? " ++ whenTrue ++ " : " ++ whenFalse)
    | _, _, _ => notConnected "Conditional" name
  | .object a => bound name a.expression
  | .console a => bound name a.expression
  | _ => ""

/-! ## Nodes -/

/-- The block of a node with the given nodes below it. -/
def Node.block (step : Nat) (node : Node) (children : List Node) : Except Fault String := do
  match ← node.attributes? with
  | none => return "// Unknown node type: " ++ node.kindName
  | some (.interfaceDecl a) => return a.block step
  | some (.functionDecl a) => a.block step children
  | some (.variableDecl a) => return "export " ++ a.declaration
  | some (.api a) => return a.block step
  | some (.importDecl a) => return a.block
  | some (.exportDecl a) => return a.block
  | some attributes => return attributes.expressionBlock (Naming.materializedName node)

end SourceCanvas
