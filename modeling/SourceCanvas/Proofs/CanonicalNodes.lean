import SourceCanvas.Proofs.Declarations
import SourceCanvas.Proofs.Functions
import SourceCanvas.Proofs.Imports

/-!
# Canonical nodes

What the text of a node keeps of its attributes can be said without the text (`Attributes.kept`). A
node at the top level is canonical if its names, types and operands are of the forms that are read
back (`Node.IsCanonical`). Its block then consists of strokes (`Node.block_of_canonical`) that are a
statement in which just what is kept is found (`Canonical.statement`, `Node.kept_of_canonical`), and
what is found has the same block (`Node.block_of_found`).
-/

namespace SourceCanvas

open Naming (synthesizedName materializedName)
open Text (given?)

/-! ## What texts keep -/

/-- The line in the body of a function with no captured body and nothing below it. -/
def FunctionAttributes.plainBody (function : FunctionAttributes) : String :=
  match function.parameters with
  | first :: second :: _ => "return " ++ first.name ++ " + " ++ second.name ++ ";"
  | _ => placeholderBody

/-- What the text of an import keeps: names are left out where everything is taken under one name,
and only types can be asked for where something is taken. -/
def ImportAttributes.kept (imported : ImportAttributes) : ImportAttributes :=
  let source := Text.unquote (Text.quote imported.source)
  if imported.defaultName.isNone && imported.wholeName.isNone && imported.named.isEmpty then
    { source }
  else
    { imported with source, named := if imported.wholeName.isSome then [] else imported.named }

/-- What the text of an export keeps: either the names or the name of everything, and a source that
is not empty. -/
def ExportAttributes.kept (exported : ExportAttributes) : ExportAttributes :=
  let source := (given? exported.source).map fun source => Text.unquote (Text.quote source)
  if exported.isStar then { source, wholeName := exported.wholeName, isStar := true }
  else { source, named := exported.named }

/-- What a text keeps of attributes that it writes under a name. A function has the body that is
written for it, a variable without a value is undefined, strings have the escapes as written, a call
tells nothing of the function it calls, and a method shows a value on the console. -/
def Attributes.kept (name : String) : Attributes → Attributes
  | .interfaceDecl a => .interfaceDecl a
  | .functionDecl a => .functionDecl { a with body := some a.plainBody }
  | .variableDecl a => .variableDecl { a with initializer := some (a.initializer.getD "undefined") }
  | .importDecl a => .importDecl a.kept
  | .exportDecl a => .exportDecl a.kept
  | .literal a =>
    .literal
      { a with
        value := if a.kind = .string then Text.unquote (Text.quote a.value) else a.value
        name := some name }
  | .call a => .call { a with expected := [], name := some name }
  | .console a => .console { a with label := Template.method a.label, name := some name }
  | attributes => attributes.withName name

/-- A text keeps the kinds. -/
theorem Attributes.kind_kept (name : String) (attributes : Attributes) :
    (attributes.kept name).kind = attributes.kind := by
  cases attributes <;> rfl

/-- What the text of a node keeps of its content. -/
def Node.kept (node : Node) : Content :=
  match node.content with
  | .typed attributes => .typed (attributes.kept (materializedName node))
  | .raw kind payload => .raw kind payload

/-! ## Blocks of terms -/

theorem Attributes.expressionBlock_withName (attributes : Attributes) (name name' : String) :
    (attributes.withName name').expressionBlock name = attributes.expressionBlock name := by
  cases attributes <;> rfl

namespace Term

theorem given?_text (atom : Atom) : given? (some atom.text) = some atom.text :=
  Text.given?_some atom.text_ne

/-- The entries of an object are those with a key, and all have one. -/
theorem expression_object (entries : List Entry) :
    ObjectAttributes.expression { properties := entries.map Entry.property } =
      braced (entries.map Entry.text) := by
  have named : (entries.map Entry.property).filter (fun property => property.key != "") =
      entries.map Entry.property := by
    refine List.filter_eq_self.mpr fun property member => ?_
    obtain ⟨entry, -, rfl⟩ := List.mem_map.mp member
    simp [Entry.property, entry.key.text_ne]
  have written (entry : Entry) : entry.property.entry = entry.text := by
    obtain ⟨key, value⟩ := entry
    cases value with
    | none => rfl
    | some value => simp [Entry.property, Property.entry, Entry.text, given?_text]
  rw [ObjectAttributes.expression, named, List.map_map]
  exact congrArg braced (List.map_congr_left fun entry _ => written entry)

/-- A term is written as its text. -/
theorem expressionBlock_attributes (term : Term) (name : String) :
    term.attributes.expressionBlock name = bound name term.text := by
  cases term with
  | string contents => rfl
  | number digits =>
    have filled : digits.text ≠ "" := (Atom.number digits).text_ne
    simp [attributes, Attributes.expressionBlock, LiteralAttributes.text, orElse, filled, text]
  | boolean value => cases value <;> rfl
  | operation left symbol right =>
    simp [attributes, Attributes.expressionBlock, given?_text, text]
  | call function args expected => simp [attributes, Attributes.expressionBlock, given?_text, text]
  | access target property =>
    simp [attributes, Attributes.expressionBlock, given?_text, Text.nonempty?, property.text_ne,
      text]
  | choice test whenTrue whenFalse =>
    simp [attributes, Attributes.expressionBlock, given?_text, text]
  | object entries =>
    simp [attributes, Attributes.expressionBlock, expression_object, text]
  | console label value =>
    simp [attributes, Attributes.expressionBlock, Template.expression_console value.text_ne, text]

/-- What is found of a term is written in the same way. -/
theorem expressionBlock_found (term : Term) (name : String) :
    term.found.expressionBlock name = bound name term.text := by
  cases term with
  | string contents =>
    simp [found, Attributes.expressionBlock, LiteralAttributes.text, quote_unquote_quoted, text]
  | number digits => exact expressionBlock_attributes (.number digits) name
  | boolean value => exact expressionBlock_attributes (.boolean value) name
  | operation left symbol right =>
    exact expressionBlock_attributes (.operation left symbol right) name
  | call function args expected =>
    exact expressionBlock_attributes (.call function args expected) name
  | access target property => exact expressionBlock_attributes (.access target property) name
  | choice test whenTrue whenFalse =>
    exact expressionBlock_attributes (.choice test whenTrue whenFalse) name
  | object entries => exact expressionBlock_attributes (.object entries) name
  | console label value =>
    exact (expressionBlock_attributes (.console (Template.method label) value) name).trans
      (congrArg (bound name) (Template.shown_method label value.text))

/-- What a text keeps of a term is what is found of it. -/
theorem kept_attributes (term : Term) (name : String) :
    term.attributes.kept name = term.found.withName name := by
  cases term <;> rfl

end Term

/-! ## Canonical nodes -/

/-- The forms of nodes whose text is read back. -/
inductive Canonical where
  | interfaceDecl (name : PlainName) (bases : List (WrittenType false)) (fields : List Field)
  | functionDecl (form : FunctionForm)
  | variableDecl (keyword : Keyword) (name : PlainName) (type : Option (WrittenType false))
      (value : Option Initializer)
  | importDecl (form : ImportForm)
  | exportDecl (form : ExportForm)
  | unnamed (term : Term)

namespace Canonical

/-- The attributes of a node of a form. -/
def attributes : Canonical → Attributes
  | .interfaceDecl name bases fields => .interfaceDecl (interfaceAttributes name bases fields)
  | .functionDecl form => .functionDecl form.attributes
  | .variableDecl keyword name type value =>
    .variableDecl
      { name := name.text, declaredType := type.map WrittenType.text,
        initializer := value.map Initializer.text, keyword := keyword.text }
  | .importDecl form => .importDecl form.attributes
  | .exportDecl form => .exportDecl form.attributes
  | .unnamed term => term.attributes

/-- The value that is written for a variable without one. -/
def undefined : Initializer := .simple (.name ⟨"undefined", by decide, by decide⟩)

/-- The word that declares constants. -/
def constant : Keyword := ⟨"const", by decide⟩

/-- The strokes of the block of a node of a form. -/
def strokes (step : Nat) (id : String) : Canonical → List Stroke
  | .interfaceDecl name bases fields => interface step name bases fields
  | .functionDecl form => form.strokes step
  | .variableDecl keyword name type value =>
    binding keyword name.text type (value.getD undefined)
  | .importDecl form => form.strokes
  | .exportDecl form => form.strokes
  | .unnamed term =>
    binding constant (synthesizedName (some term.attributes.kind) id) none (.composed term)

/-- What is found of a node of a form. -/
def found (id : String) : Canonical → Attributes
  | .interfaceDecl name bases fields => .interfaceDecl (interfaceAttributes name bases fields)
  | .functionDecl form => .functionDecl form.found
  | .variableDecl keyword name type value =>
    .variableDecl
      { name := name.text, declaredType := type.map WrittenType.text,
        initializer := some (value.getD undefined).text, keyword := keyword.text }
  | .importDecl form => .importDecl form.found
  | .exportDecl form => .exportDecl form.found
  | .unnamed term => term.found.withName (synthesizedName (some term.attributes.kind) id)

end Canonical

namespace ImportForm

theorem kept_attributes (form : ImportForm) : form.attributes.kept = form.found := by
  obtain ⟨source, named, defaultName, wholeName, typeOnly⟩ := form
  cases defaultName <;> cases wholeName <;> cases named <;> rfl

end ImportForm

theorem ExportForm.kept_attributes (form : ExportForm) : form.attributes.kept = form.found := by
  cases form with
  | names named source wholeName => rfl
  | star source filled wholeName named =>
    simp [attributes, found, ExportAttributes.kept, Text.given?_some filled]
    rfl

theorem FunctionForm.plainBody_attributes (form : FunctionForm) :
    form.attributes.plainBody = bodyText form.parameters := by
  obtain ⟨name, parameters, result, isAsync⟩ := form
  match parameters with
  | [] => rfl
  | [_] => rfl
  | first :: second :: _ => rfl

/-! ### Names -/

namespace Canonical

variable {step : Nat} {id : String}

/-- A node of a form is found as such in its strokes. -/
theorem statement (canonical : Canonical) (filled : id ≠ "") :
    Stroke.Statement (canonical.strokes step id) (canonical.found id) := by
  cases canonical with
  | interfaceDecl name bases fields => exact statement_interface step name bases fields
  | functionDecl form => exact form.statement step
  | variableDecl keyword name type value =>
    exact statement_variable keyword name type (value.getD undefined)
  | importDecl form => exact form.statement
  | exportDecl form => exact form.statement
  | unnamed term => exact statement_term constant term filled

end Canonical

/-- A node at the top level that has an id and is of one of the forms. -/
structure Node.IsCanonical (node : Node) : Prop where
  identified : node.id ≠ ""
  top : node.parent = none
  formed : ∃ canonical : Canonical, node.content = .typed canonical.attributes

/-- A term has no name. -/
theorem Term.name?_attributes (term : Term) : term.attributes.name? = none := by
  cases term <;> rfl

theorem materializedName_unnamed {node : Node} {term : Term}
    (typed : node.content = .typed term.attributes) :
    materializedName node = synthesizedName (some term.attributes.kind) node.id := by
  rw [materializedName_of_typed typed, term.name?_attributes]
  rfl

theorem materializedName_found {node : Node} {term : Term} {id : String}
    (typed : node.content = .typed (Canonical.found id (.unnamed term))) :
    materializedName node = synthesizedName (some term.attributes.kind) id := by
  have named (name : String) : (term.found.withName name).name? = some name := by
    cases term <;> rfl
  have filled : synthesizedName (some term.attributes.kind) id ≠ "" :=
    synthesizedName_ne _ id (by decide)
  rw [materializedName_of_typed typed, Canonical.found, named, Option.bind_some, Text.nonempty?,
    if_neg filled]
  rfl

/-- A text keeps of a node of a form what is found of it. -/
theorem Node.kept_of_canonical {node : Node} {canonical : Canonical}
    (typed : node.content = .typed canonical.attributes) :
    node.kept = .typed (canonical.found node.id) := by
  rw [kept, typed]
  refine congrArg Content.typed ?_
  cases canonical with
  | interfaceDecl name bases fields => rfl
  | functionDecl form =>
    have body := form.plainBody_attributes
    simp [Canonical.attributes, Attributes.kept, Canonical.found, FunctionForm.found, body]
  | variableDecl keyword name type value => cases value <;> rfl
  | importDecl form => exact congrArg Attributes.importDecl form.kept_attributes
  | exportDecl form => exact congrArg Attributes.exportDecl form.kept_attributes
  | unnamed term =>
    rw [materializedName_unnamed typed]
    exact term.kept_attributes _

/-! ### Blocks -/

/-- The declaration of a variable has its type and its value, or the value of those without one. -/
theorem declaration_attributes (keyword : Keyword) (name : String)
    (type : Option (WrittenType false)) (value : Option Initializer) :
    VariableAttributes.declaration
        { name, declaredType := type.map WrittenType.text,
          initializer := value.map Initializer.text, keyword := keyword.text } =
      keyword.text ++ " " ++ name ++ WrittenType.typedText type ++ " = " ++
        (value.getD Canonical.undefined).text ++ ";" := by
  have declares : orElse keyword.text "const" = keyword.text := by
    have filled : ∀ word ∈ variableWords, word ≠ "" := by decide
    exact if_neg (filled _ keyword.listed)
  have given : (given? (value.map Initializer.text)).getD "undefined" =
      (value.getD Canonical.undefined).text := by
    cases value with
    | none => rfl
    | some value => rw [Option.map_some, Text.given?_some value.text_ne]; rfl
  rw [VariableAttributes.declaration, declares, given]
  cases type with
  | none => rfl
  | some type => rw [Option.map_some, Text.given?_some type.text_ne]; rfl

section Blocks

variable {step : Nat} {node : Node} {children : List Node}

/-- The block of a node of the kind of a term is an expression that is bound to its name. -/
theorem Node.block_of_term {attributes : Attributes} {term : Term}
    (typed : node.content = .typed attributes) (kind : attributes.kind = term.attributes.kind) :
    node.block step children = .ok (attributes.expressionBlock (materializedName node)) := by
  rw [block, attributes?, typed]
  cases attributes <;> first | rfl | (cases term <;> cases kind)

/-- The block of a variable. -/
theorem Node.block_of_variable {declared : VariableAttributes}
    (typed : node.content = .typed (.variableDecl declared)) :
    node.block step children = .ok ("export " ++ declared.declaration) := by
  rw [block, attributes?, typed]
  rfl

theorem ofList_written_binding (keyword : Keyword) (name : String)
    (type : Option (WrittenType false)) (value : Initializer) :
    String.ofList (Stroke.written (binding keyword name type value)) =
      "export " ++ (keyword.text ++ " " ++ name ++ WrittenType.typedText type ++ " = " ++
        value.text ++ ";") := by
  rw [written_binding, String.ofList_toList]
  simp only [String.append_assoc]

theorem ofList_written_unnamed (term : Term) (name : String) :
    String.ofList (Stroke.written (binding Canonical.constant name none (.composed term))) =
      bound name term.text := by
  have words : "export " ++ Canonical.constant.text ++ " " = "export const " := by decide
  rw [written_binding, String.ofList_toList, words, WrittenType.typedText, String.append_empty]
  rfl

/-- The block of a node of a form is made of its strokes. -/
theorem Node.block_of_canonical {canonical : Canonical}
    (typed : node.content = .typed canonical.attributes) :
    node.block step [] = .ok (String.ofList (Stroke.written (canonical.strokes step node.id))) := by
  cases canonical with
  | interfaceDecl name bases fields =>
    rw [block, attributes?, typed, Canonical.strokes, written_interface, String.ofList_toList]
    rfl
  | functionDecl form =>
    rw [block, attributes?, typed, Canonical.strokes, form.written_strokes, String.ofList_toList,
      ← form.block_attributes]
    rfl
  | variableDecl keyword name type value =>
    rw [block_of_variable typed, declaration_attributes, Canonical.strokes, ofList_written_binding]
  | importDecl form =>
    rw [block, attributes?, typed, Canonical.strokes, form.written_strokes, String.ofList_toList]
    rfl
  | exportDecl form =>
    rw [block, attributes?, typed, Canonical.strokes, form.written_strokes, String.ofList_toList]
    rfl
  | unnamed term =>
    rw [block_of_term typed rfl, materializedName_unnamed typed, Canonical.strokes,
      ofList_written_unnamed, Canonical.attributes, term.expressionBlock_attributes]

/-- What is found of a node of a form has the same block, whatever lies below it. -/
theorem Node.block_of_found {canonical : Canonical} {id : String}
    (typed : node.content = .typed (canonical.found id)) :
    node.block step children =
      .ok (String.ofList (Stroke.written (canonical.strokes step id))) := by
  cases canonical with
  | interfaceDecl name bases fields =>
    rw [block, attributes?, typed, Canonical.strokes, written_interface, String.ofList_toList]
    rfl
  | functionDecl form =>
    rw [block, attributes?, typed, Canonical.strokes, form.written_strokes, String.ofList_toList,
      ← form.block_found step children]
    rfl
  | variableDecl keyword name type value =>
    have given := declaration_attributes keyword name.text type
      (some (value.getD Canonical.undefined))
    rw [block_of_variable typed, Canonical.strokes, ofList_written_binding]
    exact congrArg (Except.ok <| "export " ++ ·) given
  | importDecl form =>
    rw [block, attributes?, typed, Canonical.strokes, form.written_strokes, String.ofList_toList,
      ← form.block_found]
    rfl
  | exportDecl form =>
    rw [block, attributes?, typed, Canonical.strokes, form.written_strokes, String.ofList_toList,
      ← form.block_found]
    rfl
  | unnamed term =>
    have kind : (Canonical.found id (.unnamed term)).kind = term.attributes.kind :=
      (Attributes.kind_withName _ _).trans term.kind_found
    have name := materializedName_found typed
    rw [block_of_term typed kind, name, Canonical.strokes, ofList_written_unnamed, Canonical.found,
      Attributes.expressionBlock_withName, term.expressionBlock_found]

end Blocks

end SourceCanvas
