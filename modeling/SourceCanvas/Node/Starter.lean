import SourceCanvas.Node.Basic
import SourceCanvas.Text.CharClass

/-!
# Starter content

What a node holds that is put on the canvas by hand. A node of unknown kind only gets a name, made
of its kind.
-/

namespace SourceCanvas

/-- The attributes that a fresh node of a kind starts with. -/
def Attributes.starter : NodeKind → Attributes
  | .variableDecl => .variableDecl { name := "newVar", declaredType := some "number" }
  | .functionDecl => .functionDecl { name := "myFunction" }
  | .binaryOp => .binaryOp {}
  | .literal => .literal { value := "0", kind := .number }
  | .api => .api { endpoint := "https://api.example.com/endpoint" }
  | .console => .console {}
  | .call => .call {}
  | .propertyAccess => .propertyAccess { property := "prop" }
  | .conditional => .conditional {}
  | .object => .object {
      properties := [{ key := "id", value := some "''" }, { key := "name", value := some "''" }] }
  | .interfaceDecl => .interfaceDecl { name := "NewInterface" }
  | .importDecl => .importDecl { source := "./module", defaultName := some "NewImport" }
  | .exportDecl => .exportDecl { named := ["NewExport"] }

/-- A text whose first character is a capital. -/
def capitalized (text : String) : String :=
  match text.toList with
  | [] => ""
  | c :: rest => String.ofList (Text.capital c ++ rest)

/-- What a fresh node of a kind with the given name starts with. -/
def Content.starter (kind : String) : Content :=
  match NodeKind.ofName? kind with
  | some kind => .typed (Attributes.starter kind)
  | none => .raw kind [("name", .string ("New" ++ capitalized kind))]

theorem Attributes.kind_starter (kind : NodeKind) : (Attributes.starter kind).kind = kind := by
  cases kind <;> rfl

end SourceCanvas
