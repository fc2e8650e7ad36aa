import SkillCompiler.Event.Name
import SkillCompiler.Interface.Library
import SkillCompiler.Interface.Model

/-!
# Classifying events

An address is looked up among the declarations of a skill, one kind of interaction after another,
and the first kind that declares it is its kind. Two kinds are looked up by the path with slashes
for dots, and then the address keeps that form, whatever becomes of it. The declaration says the
message type; the elements that belong to it say which fields are used.
-/

namespace SkillCompiler

/-- A kind of interaction. -/
inductive Interaction where
  | serviceServer
  | serviceClient
  | topicPublisher
  | topicSubscriber
  | actionServer
  | actionClient
  deriving DecidableEq, Repr

namespace Interaction

/-- The kinds in the order in which they are tried. -/
def all : List Interaction :=
  [serviceServer, serviceClient, topicPublisher, topicSubscriber, actionServer, actionClient]

def name : Interaction → String
  | serviceServer => "service-server"
  | serviceClient => "service-client"
  | topicPublisher => "topic-publisher"
  | topicSubscriber => "topic-subscriber"
  | actionServer => "action-server"
  | actionClient => "action-client"

/-- The tag of a declaration. -/
def tag : Interaction → String
  | serviceServer => "ros_service_server"
  | serviceClient => "ros_service_client"
  | topicPublisher => "ros_topic_publisher"
  | topicSubscriber => "ros_topic_subscriber"
  | actionServer => "ros_action_server"
  | actionClient => "ros_action_client"

def family : Interaction → Family
  | serviceServer => .service
  | serviceClient => .service
  | topicPublisher => .topic
  | topicSubscriber => .topic
  | actionServer => .action
  | actionClient => .action

/-- The attribute of a declaration that holds the address. -/
def addressAttribute (kind : Interaction) : String :=
  match kind.family with
  | .service => "service_name"
  | .topic => "topic"
  | .action => "action_name"

/-- Whether dots in an address stand for slashes. -/
def isHierarchical : Interaction → Bool
  | serviceClient => true
  | topicSubscriber => true
  | _ => false

/-- The form of an address that declarations of the kind use. -/
def addressForm (kind : Interaction) (a : Address) : Address :=
  if kind.isHierarchical then a.hierarchical else a

end Interaction

/-- What is known about an event. Without a kind no declaration matched. -/
structure Classification where
  kind : Option Interaction := none
  messageType : MessageType := ""
  /-- The package of the interface. -/
  interfaceName : String := ""
  /-- The name of the interface in its package. -/
  typeName : String := ""
  topicName : Option String := none
  /-- The local name of a publisher. -/
  localName : Option String := none
  requestFields : List String := []
  responseFields : List String := []
  topicFields : List String := []
  feedbackFields : List String := []
  fieldTypes : Assoc String := []
  isVirtual : Bool := false
  deriving DecidableEq, Repr

namespace Classification

/-- The type of a field about which nothing is known. -/
def defaultFieldType : String := "string"

def ofType (kind : Interaction) (type : MessageType) : Classification :=
  { kind := some kind, messageType := type, interfaceName := type.package,
    typeName := type.interface }

def isClassified (c : Classification) : Bool := c.kind.isSome

def fieldType (c : Classification) (field : String) : String :=
  (c.fieldTypes.get? field).getD defaultFieldType

/-- The fields that the skill refers to. -/
def usedFields (c : Classification) : List String :=
  c.requestFields ++ c.responseFields ++ c.topicFields ++ c.feedbackFields

/-- The used fields whose type is not known. -/
def untypedFields (c : Classification) : List String :=
  c.usedFields.filter fun field => !c.fieldTypes.contains field

/-- Takes feedback fields and types from a definition. -/
def withDefinition (c : Classification) (d : Definition) : Classification :=
  { c with
    feedbackFields :=
      if c.kind.map Interaction.family = some .action then d.feedback.map Field.name
      else c.feedbackFields
    fieldTypes := d.fieldTypes }

/-- Gives every used field a type. -/
def withDefaults (c : Classification) : Classification :=
  { c with
    fieldTypes := c.untypedFields.foldl (fun types field =>
      types.insert field defaultFieldType) c.fieldTypes }

def defaultNotes (c : Classification) : List Entry :=
  c.untypedFields.map fun field =>
    .warn .classification "no type information for field, defaulting to string"
      [("field", field), ("message_type", c.messageType)]

end Classification

/-- What addresses are classified against. -/
structure Classifier where
  doc : Document
  files : FileTree
  library : Option Library := none
  interfaces : Option InterfaceModel := none
  components : Option ComponentModel := none

namespace Classifier

/-- The first declaration of a kind for a path. -/
def declaration? (c : Classifier) (kind : Interaction) (path : String) : Option NodeId :=
  c.doc.findAttribute? c.doc.root kind.tag kind.addressAttribute path

/-- The first kind that declares an address, and the declaration. -/
def match? (c : Classifier) (a : Address) : Option (Interaction × NodeId) :=
  Interaction.all.findSome? fun kind =>
    (c.declaration? kind (kind.addressForm a).path).map (kind, ·)

/-- The element with a tag and a name that has to be there. -/
def paired (c : Classifier) (tag name : String) : Except CompileError NodeId :=
  match c.doc.findAttribute? c.doc.root tag "name" name with
  | some id => .ok id
  | none => .error (.missingDeclaration tag name)

def requiredAttribute (c : Classifier) (kind : Interaction) (id : NodeId) (name : String) :
    Except CompileError String :=
  match c.doc.attribute? id name with
  | some value => .ok value
  | none => .error (.missingAttribute kind.tag name)

/-- An attribute that may be missing, which is remarked. -/
def optionalAttribute (c : Classifier) (kind : Interaction) (id : NodeId) (name : String) :
    Logged String :=
  match c.doc.attribute? id name with
  | some value => pure value
  | none => do
    note (.warn .classification "missing attribute"
      [("element", Text.quoted kind.tag), ("attribute", Text.quoted name)])
    return ""

/-- The names of the `field` children of an element. -/
def fieldNames (c : Classifier) (id : NodeId) : List String :=
  (c.doc.childElements id "field").filterMap (c.doc.attribute? · "name")

/-- What follows the first dot of an expression. -/
def afterDot? (expr : String) : Option String :=
  (Text.cut? ['.'] expr.toList).map fun (_, field) => String.ofList field

/-- The fields that the `assign` children of an element read. -/
def assignedFields (c : Classifier) (id : NodeId) : List String :=
  ((c.doc.childElements id "assign").filterMap (c.doc.attribute? · "expr")).filterMap afterDot?

/-- What the two elements of a service say about its fields. -/
def service (c : Classifier) (kind : Interaction) (id : NodeId) (request response path : String) :
    Except CompileError Classification := do
  let type ← c.requiredAttribute kind id "type"
  let request ← c.paired request path
  let response ← c.paired response path
  return { Classification.ofType kind type with
    requestFields := c.fieldNames request
    responseFields := c.assignedFields response }

/-- What a declaration and the elements that belong to it say. -/
def extract (c : Classifier) (kind : Interaction) (id : NodeId) (path : String) :
    Compile Classification := do
  match kind with
  | .serviceServer =>
    Attempt.ofExcept (c.service kind id "ros_service_handle_request"
      "ros_service_send_response" path)
  | .serviceClient =>
    Attempt.ofExcept (c.service kind id "ros_service_send_request"
      "ros_service_handle_response" path)
  | .topicPublisher =>
    let type ← c.optionalAttribute kind id "type"
    let name ← Attempt.ofExcept (c.requiredAttribute kind id "name")
    let publish ← Attempt.ofExcept (c.paired "ros_topic_publish" name)
    return { Classification.ofType kind type with
      topicFields := c.assignedFields publish
      topicName := c.doc.attribute? id "topic"
      localName := some name }
  | .topicSubscriber =>
    let type ← c.optionalAttribute kind id "type"
    let topic ← Attempt.ofExcept (c.requiredAttribute kind id "topic")
    let callback ← Attempt.ofExcept (c.paired "ros_topic_callback" topic)
    return { Classification.ofType kind type with
      topicFields := c.fieldNames callback
      topicName := some topic }
  | .actionServer => return .ofType kind (← c.optionalAttribute kind id "type")
  | .actionClient => return .ofType kind (← c.optionalAttribute kind id "type")

/-- Gives types to fields, from the definition of the message type if there is one. -/
def resolveTypes (c : Classifier) (found : Classification) : Compile Classification := do
  let definition ←
    match c.library with
    | some library => library.definition c.files found.messageType
    | none => pure none
  let found := (definition.map found.withDefinition).getD found
  tell found.defaultNotes
  return found.withDefaults

/-- The package that the component model gives a component. -/
def package? (c : Classifier) (a : Address) : Option String :=
  c.components.bind (·.interfaceFor? a.component)

/-- Takes the package of the component, and what the interface model says about it. -/
def withModels (c : Classifier) (a : Address) (found : Classification) : Classification :=
  let found := { found with interfaceName := (c.package? a).getD found.interfaceName }
  match c.interfaces with
  | none => found
  | some model =>
    let found := { found with isVirtual := model.isVirtual found.interfaceName }
    match model.function? found.interfaceName a.function with
    | some ⟨_, some field, some type⟩ =>
      { found with fieldTypes := found.fieldTypes.insertNew field type }
    | _ => found

def modelNotes (c : Classifier) (a : Address) : List Entry :=
  (c.package? a).toList.map fun interface =>
    .debug .classification "interface package from component model"
      [("component", a.component), ("interface", interface)]

/-- Classifies an address by a declaration that matches it. -/
def classifyBy (c : Classifier) (kind : Interaction) (id : NodeId) (a : Address) :
    Compile Classification := do
  let found ← c.extract kind id a.path
  let found ← c.resolveTypes found
  tell (c.modelNotes a)
  let found := c.withModels a found
  note (.info .classification "classified interface"
    [("address", a.path), ("kind", kind.name), ("message_type", found.messageType)])
  return found

/-- Classifies an address, and gives the form of it that matched. -/
def classify (c : Classifier) (a : Address) :
    Logged (Except CompileError Classification × Address) := do
  match c.match? a with
  | some (kind, id) =>
    let form := kind.addressForm a
    let found ← (c.classifyBy kind id form).run
    return (found, form)
  | none =>
    note (.warn .classification "no interface declaration matches, leaving unclassified"
      [("address", a.path)])
    return (.ok {}, a)

end Classifier

end SkillCompiler
