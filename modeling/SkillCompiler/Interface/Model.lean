import SkillCompiler.Assoc
import SkillCompiler.Document.Load
import SkillCompiler.Document.Query
import SkillCompiler.Text.Blank

/-!
# Models of the system

The interface model says which interface packages are virtual and what data their functions carry.
The component model says which package a component implements. Both are documents, and in both the
first entry under a name counts.
-/

namespace SkillCompiler

/-- What an interface function carries. -/
structure FunctionModel where
  interfaceType : Option String
  dataField : Option String
  dataType : Option String
  deriving DecidableEq, Repr

structure InterfaceEntry where
  isVirtual : Bool
  functions : Assoc FunctionModel
  deriving DecidableEq, Repr

/-- Interface packages by name. -/
abbrev InterfaceModel := Assoc InterfaceEntry

namespace InterfaceModel

/-- The characters of the first descendant with a tag, if they are more than blanks. -/
def textOf (doc : Document) (id : NodeId) (tag : String) : Option String :=
  ((doc.findTag? id tag).bind doc.text?).bind fun text =>
    match Text.trim text.toList with
    | [] => none
    | text => some (String.ofList text)

def functionAt (doc : Document) (id : NodeId) : FunctionModel :=
  { interfaceType := (doc.findTag? id "interface").bind (doc.attribute? · "type")
    dataField := textOf doc id "dataField"
    dataType := textOf doc id "dataType" }

def functionsAt (doc : Document) (id : NodeId) : Assoc FunctionModel :=
  (doc.withAttribute id "function" "id").foldl (fun functions n =>
    match doc.attribute? n "id" with
    | some name => functions.insertNew name (functionAt doc n)
    | none => functions) []

def entryAt (doc : Document) (id : NodeId) : InterfaceEntry :=
  ⟨doc.attribute? id "virtual" = some "true", functionsAt doc id⟩

/-- The named interfaces in a document, its root included. -/
def interfaceIds (doc : Document) : List NodeId :=
  let below := doc.withAttribute doc.root "interface" "id"
  if doc.hasTag doc.root "interface" && (doc.attribute? doc.root "id").isSome then
    doc.root :: below
  else below

def entries (doc : Document) : List (String × InterfaceEntry) :=
  (interfaceIds doc).filterMap fun n => (doc.attribute? n "id").map (·, entryAt doc n)

def ofDocument (doc : Document) : InterfaceModel :=
  (entries doc).foldl (fun model (name, entry) => model.insertNew name entry) []

def notes (doc : Document) : List Entry :=
  (entries doc).map fun (name, entry) =>
    .debug .model "loaded interface model" [("interface", name),
      ("is_virtual", toString entry.isVirtual),
      ("functions", toString entry.functions.length)]

/-- Reads an interface model. -/
def load (source : String) : Compile InterfaceModel := do
  let doc ← Document.load source
  tell (notes doc)
  return ofDocument doc

def isVirtual (model : InterfaceModel) (interface : String) : Bool :=
  (Assoc.get? model interface).any (·.isVirtual)

def function? (model : InterfaceModel) (interface function : String) : Option FunctionModel :=
  (Assoc.get? model interface).bind (·.functions.get? function)

end InterfaceModel

/-- The interface package of each component. -/
abbrev ComponentModel := Assoc String

namespace ComponentModel

def ofDocument (doc : Document) : ComponentModel :=
  (doc.withAttribute doc.root "componentDeclaration" "id").foldl (fun model n =>
    match doc.attribute? n "id", doc.attribute? n "interface" with
    | some name, some interface => model.insertNew name interface
    | _, _ => model) []

/-- Reads a component model. -/
def load (source : String) : Compile ComponentModel := do
  return ofDocument (← Document.load source)

def interfaceFor? (model : ComponentModel) (component : String) : Option String :=
  Assoc.get? model component

end ComponentModel

end SkillCompiler
