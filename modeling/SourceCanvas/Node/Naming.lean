import SourceCanvas.Node.Basic

/-!
# Names for constructs without one

An expression that stands for itself at the top level is bound to a name. Where its node declares
none, the name is made of a beginning for the kind and the id of the node with all unsafe characters
replaced (`synthesizedName`). A name of that form tells a reader which kind of expression to look
for (`generatedKind?`).
-/

namespace SourceCanvas.Naming

/-- The beginnings of made-up names, by kind. -/
def beginnings : List (NodeKind × String) :=
  [(.binaryOp, "bin"), (.console, "log"), (.call, "call"), (.propertyAccess, "prop"),
    (.conditional, "cond"), (.literal, "lit"), (.object, "obj"), (.api, "api")]

/-- Characters that may stand in a made-up name. -/
def isSafe (c : Char) : Bool := c.isAlphanum || c = '_'

/-- The beginning of the made-up names of a kind. -/
def beginning (kind : Option NodeKind) : String :=
  (kind.bind fun kind => beginnings.lookup kind).getD "node"

/-- The made-up name of a node. -/
def synthesizedName (kind : Option NodeKind) (id : String) : String :=
  beginning kind ++ "_" ++ id.map fun c => if isSafe c then c else '_'

/-- The name without a line feed at its end. -/
def dropFinalNewline (name : List Char) : List Char :=
  if name.getLast? = some '\n' then name.dropLast else name

/-- The kind whose made-up names look like the given name, if any. One line feed at the end is not
counted. -/
def generatedKind? (name : String) : Option NodeKind :=
  (beginnings.find? fun (_, beginning) =>
    let mark := beginning.toList ++ ['_']
    let rest := (dropFinalNewline name.toList).drop mark.length
    mark.isPrefixOf name.toList && !rest.isEmpty && rest.all isSafe).map (·.1)

/-- The name that a node is bound to: the one it declares, or a made-up one. -/
def materializedName (node : Node) : String :=
  node.content.declaredName?.getD (synthesizedName node.kind? node.id)

end SourceCanvas.Naming
