import SkillCompiler.Document.Basic
import SkillCompiler.Text.Search

/-!
# Searching a document

Every search visits the descendants of a node in document order, a node before its children, and
never the node it starts from. The walk keeps the nodes still to visit on a stack; since a tree
holds each node once, it needs no more steps than the document has nodes.
-/

namespace SkillCompiler

namespace Document

/-- Visits the nodes on the stack and their descendants, for at most `steps` nodes. -/
def walk (doc : Document) : (steps : Nat) → (stack : List NodeId) → List NodeId
  | 0, _ => []
  | _ + 1, [] => []
  | steps + 1, id :: stack => id :: doc.walk steps (doc.children id ++ stack)

/-- The nodes below a node, in document order. -/
def descendants (doc : Document) (id : NodeId) : List NodeId :=
  doc.walk doc.size (doc.children id)

/-- The descendants with a tag. -/
def withTag (doc : Document) (id : NodeId) (tag : String) : List NodeId :=
  (doc.descendants id).filter (doc.hasTag · tag)

/-- The descendants with a tag that have an attribute. -/
def withAttribute (doc : Document) (id : NodeId) (tag name : String) : List NodeId :=
  (doc.descendants id).filter fun n => doc.hasTag n tag && (doc.attribute? n name).isSome

/-- The first descendant with a tag. -/
def findTag? (doc : Document) (id : NodeId) (tag : String) : Option NodeId :=
  (doc.descendants id).find? (doc.hasTag · tag)

/-- The first descendant with a tag whose attribute has a value. -/
def findAttribute? (doc : Document) (id : NodeId) (tag name value : String) : Option NodeId :=
  (doc.descendants id).find? fun n => doc.hasTag n tag && doc.attribute? n name = some value

/-- The first descendant with a tag whose attribute contains a text. -/
def findContaining? (doc : Document) (id : NodeId) (tag name needle : String) : Option NodeId :=
  (doc.descendants id).find? fun n =>
    doc.hasTag n tag && (doc.attribute? n name).any (Text.contains needle)

end Document

end SkillCompiler
