/-!
# Markup tokens

A token is one piece of markup with its references resolved: a tag with its attributes, a run of
text, a CDATA section, a comment or the declaration. A piece that says nothing about the document
(a doctype, a processing instruction) is `skipped`.
-/

namespace SkillCompiler

/-- A name and its value on an element. -/
structure Attribute where
  name : String
  value : String
  deriving DecidableEq, Repr

/-- The declaration at the head of a document. -/
structure Declaration where
  version : String
  encoding : Option String
  standalone : Option String
  deriving DecidableEq, Repr

/-- One piece of markup. -/
inductive Token where
  | declaration (d : Declaration)
  /-- A tag that opens an element. -/
  | start (tag : String) (attributes : List Attribute)
  /-- A tag of an element without content. -/
  | empty (tag : String) (attributes : List Attribute)
  /-- A tag that closes an element. -/
  | close (tag : String)
  | text (value : String)
  | cdata (value : String)
  | comment (value : String)
  | skipped
  deriving DecidableEq, Repr

end SkillCompiler
