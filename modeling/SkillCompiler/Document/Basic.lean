import SkillCompiler.Markup.Token
import SkillCompiler.Markup.Fault

/-!
# Documents

A document is a table of nodes. A node is known by its place in the table, knows its parent and its
children, and is never removed from the table: detaching it only unlinks it, so a place once handed
out keeps naming the same node. An edit works on the document step by step (`DocumentAction`): its
checks and its changes come one after another, and it leaves a document also if it is refused.
-/

namespace SkillCompiler

/-- The place of a node in its document. -/
abbrev NodeId := Nat

/-- What a node holds. -/
inductive Content where
  | element (tag : String) (attributes : List Attribute)
  | text (value : String)
  | cdata (value : String)
  | comment (value : String)
  deriving DecidableEq, Repr, Inhabited

structure Node where
  content : Content
  parent : Option NodeId
  children : List NodeId
  deriving DecidableEq, Repr, Inhabited

structure Document where
  nodes : Array Node
  root : NodeId
  declaration : Option Declaration
  deriving DecidableEq, Repr, Inhabited

/-- Why a document cannot be read or an edit is refused. -/
inductive DocumentError where
  | malformed (position : Nat) (fault : Markup.Fault)
  | noRoot
  | multipleRoots (tag : String)
  | notAnElement (id : NodeId)
  | detached (id : NodeId)
  | alreadyAttached (id : NodeId)
  deriving DecidableEq, Repr

def DocumentError.message : DocumentError → String
  | malformed position fault =>
    "XML parse error at byte " ++ toString position ++ ": " ++ fault.message
  | noRoot => "Document has no root element"
  | multipleRoots tag =>
    "Document has more than one root element: found '" ++ tag ++ "' after the root"
  | notAnElement id => "Node NodeId(" ++ toString id ++ ") is not an element"
  | detached id => "Node NodeId(" ++ toString id ++ ") has no parent"
  | alreadyAttached id => "Node NodeId(" ++ toString id ++ ") is already attached to the tree"

namespace Content

/-- The tag of an element. -/
def tag? : Content → Option String
  | element tag _ => some tag
  | _ => none

/-- The attributes of an element; nothing else has any. -/
def attributes : Content → List Attribute
  | element _ as => as
  | _ => []

/-- An element with another tag. -/
def retag (tag : String) : Content → Content
  | element _ as => element tag as
  | c => c

/-- An element with other attributes. -/
def mapAttributes (f : List Attribute → List Attribute) : Content → Content
  | element tag as => element tag (f as)
  | c => c

/-- The characters of text and CDATA. -/
def characters? : Content → Option String
  | text value => some value
  | cdata value => some value
  | _ => none

end Content

/-- A node that holds something else. -/
def Node.mapContent (f : Content → Content) (n : Node) : Node :=
  { n with content := f n.content }

/-! ## Attribute lists -/

/-- The value of the first attribute with a name. -/
def lookupAttribute (name : String) (as : List Attribute) : Option String :=
  (as.find? fun a => a.name = name).map Attribute.value

/-- Puts a value in place of the first attribute with its name, or at the end. -/
def setAttribute (name value : String) : List Attribute → List Attribute
  | [] => [⟨name, value⟩]
  | a :: as => if a.name = name then ⟨name, value⟩ :: as else a :: setAttribute name value as

/-- Gives the first attribute named `old` the name `new`. -/
def renameFirst (old new : String) : List Attribute → List Attribute
  | [] => []
  | a :: as => if a.name = old then ⟨new, a.value⟩ :: as else a :: renameFirst old new as

namespace Document

/-! ## What a node says -/

def size (doc : Document) : Nat := doc.nodes.size

def node? (doc : Document) (id : NodeId) : Option Node := doc.nodes[id]?

def content? (doc : Document) (id : NodeId) : Option Content :=
  (doc.node? id).map Node.content

def tag? (doc : Document) (id : NodeId) : Option String :=
  (doc.content? id).bind Content.tag?

def hasTag (doc : Document) (id : NodeId) (tag : String) : Bool :=
  doc.tag? id = some tag

def attributes (doc : Document) (id : NodeId) : List Attribute :=
  ((doc.content? id).map Content.attributes).getD []

/-- The value of an attribute of an element. -/
def attribute? (doc : Document) (id : NodeId) (name : String) : Option String :=
  lookupAttribute name (doc.attributes id)

/-- The parent; the root and detached nodes have none. -/
def parent? (doc : Document) (id : NodeId) : Option NodeId :=
  (doc.node? id).bind Node.parent

def children (doc : Document) (id : NodeId) : List NodeId :=
  ((doc.node? id).map Node.children).getD []

/-- The children that are elements with a tag. -/
def childElements (doc : Document) (id : NodeId) (tag : String) : List NodeId :=
  (doc.children id).filter (doc.hasTag · tag)

/-- The characters of the first child that is text or CDATA. -/
def text? (doc : Document) (id : NodeId) : Option String :=
  (doc.children id).findSome? fun child => (doc.content? child).bind Content.characters?

/-- Follows parents for at most `steps` steps in search of the root. -/
def climbs (doc : Document) : (steps : Nat) → NodeId → Bool
  | 0, id => id = doc.root
  | steps + 1, id =>
    id = doc.root ||
      match doc.parent? id with
      | some parent => doc.climbs steps parent
      | none => false

/-- Whether the chain of parents ends at the root. A chain longer than the table repeats a node, and
would be followed for ever; such a node counts as not attached. -/
def isAttached (doc : Document) (id : NodeId) : Bool :=
  doc.climbs doc.size id

/-- Changes one node and no other. -/
def modify (doc : Document) (id : NodeId) (f : Node → Node) : Document :=
  { doc with nodes := doc.nodes.modify id f }

end Document

/-! ## Edits -/

/-- Work on a document. It answers a value or an error, and leaves a document in both cases. -/
abbrev DocumentAction (α : Type) := ExceptT DocumentError (StateM Document) α

namespace DocumentAction

/-- The answer of some work on a document, and the document after it. -/
def on {α : Type} (doc : Document) (action : DocumentAction α) :
    Except DocumentError α × Document :=
  StateT.run action.run doc

/-- Changes one node and no other. -/
def change (id : NodeId) (f : Node → Node) : DocumentAction Unit :=
  modify (·.modify id f)

def requireElement (id : NodeId) : DocumentAction Unit := do
  if ((← get).tag? id).isNone then throw (.notAnElement id)

def requireDetached (id : NodeId) : DocumentAction Unit := do
  let doc ← get
  if (doc.parent? id).isSome || id = doc.root then throw (.alreadyAttached id)

/-- The parent of a node that has to have one. -/
def parentOf (id : NodeId) : DocumentAction NodeId := do
  match (← get).parent? id with
  | some parent => return parent
  | none => throw (.detached id)

end DocumentAction

namespace Document

open DocumentAction

/-- Adds a detached element and says where it stands. -/
def createElement (doc : Document) (tag : String) (attributes : List Attribute) :
    Document × NodeId :=
  ({ doc with nodes := doc.nodes.push ⟨.element tag attributes, none, []⟩ }, doc.size)

/-- Makes a detached node the last child of an element. -/
def appendChild (doc : Document) (parent child : NodeId) : Except DocumentError Unit × Document :=
  on doc do
    requireElement parent
    requireDetached child
    change parent fun n => { n with children := n.children ++ [child] }
    change child fun n => { n with parent := some parent }

/-- Makes a detached node the next sibling of a node that has a parent. -/
def insertAfter (doc : Document) (reference new : NodeId) :
    Except DocumentError Unit × Document :=
  on doc do
    requireDetached new
    let parent ← parentOf reference
    match ((← get).children parent).idxOf? reference with
    | none => throw (.detached reference)
    | some i =>
      change parent fun n => { n with children := n.children.insertIdx (i + 1) new }
      change new fun n => { n with parent := some parent }

/-- Unlinks a node and what is below it from its parent. -/
def detach (doc : Document) (id : NodeId) : Except DocumentError Unit × Document :=
  on doc do
    let parent ← parentOf id
    change parent fun n => { n with children := n.children.filter (· ≠ id) }
    change id fun n => { n with parent := none }

def setTag (doc : Document) (id : NodeId) (tag : String) : Except DocumentError Unit × Document :=
  on doc do
    requireElement id
    change id (Node.mapContent (Content.retag tag))

/-- Sets an attribute, in place if the element has it. -/
def setAttribute (doc : Document) (id : NodeId) (name value : String) :
    Except DocumentError Unit × Document :=
  on doc do
    requireElement id
    change id (Node.mapContent (Content.mapAttributes (SkillCompiler.setAttribute name value)))

/-- Removes the first attribute with a name. Gives its value, if there is one. -/
def removeAttribute (doc : Document) (id : NodeId) (name : String) : Option String × Document :=
  let (answer, doc) := on doc do
    requireElement id
    match (← get).attribute? id name with
    | none => return none
    | some value =>
      change id (Node.mapContent (Content.mapAttributes (·.eraseP fun a => a.name = name)))
      return some value
  (answer.toOption.join, doc)

/-- Renames an attribute in place. An attribute that already has the new name gives way before.
Says whether the element has the attribute. -/
def renameAttribute (doc : Document) (id : NodeId) (old new : String) : Bool × Document :=
  let (answer, doc) := on doc do
    requireElement id
    if ((← get).attribute? id old).isNone then return false
    change id (Node.mapContent (Content.mapAttributes
      (·.filter fun a => a.name ≠ new || a.name = old)))
    change id (Node.mapContent (Content.mapAttributes (renameFirst old new)))
    return true
  (answer.toOption.getD false, doc)

/-- The document after an edit that has to succeed. -/
def expect {α : Type} (edited : Except DocumentError α × Document) :
    Except DocumentError Document :=
  edited.1.map fun _ => edited.2

end Document

end SkillCompiler
