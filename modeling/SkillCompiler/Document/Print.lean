import SkillCompiler.Document.Forest
import SkillCompiler.Markup.Reference

/-!
# Writing documents

A forest is written as tokens. A tag or a comment stands on a line of its own, indented by four
blanks per open element, unless it follows text or CDATA; text and CDATA are written where they
stand.
-/

namespace SkillCompiler

namespace Token

/-- An attribute as it is written inside a tag. -/
def attributeText (a : Attribute) : List Char :=
  ' ' :: a.name.toList ++ "=\"".toList ++ Markup.escape a.value.toList ++ ['"']

/-- The part of a declaration that is there. -/
def partText (name : String) : Option String → List Char
  | some value => ' ' :: name.toList ++ "=\"".toList ++ value.toList ++ ['"']
  | none => []

/-- A token as it is written. -/
def print : Token → List Char
  | declaration d =>
    "<?xml".toList ++ partText "version" (some d.version) ++ partText "encoding" d.encoding ++
      partText "standalone" d.standalone ++ "?>".toList
  | start tag attributes =>
    '<' :: tag.toList ++ attributes.flatMap attributeText ++ ['>']
  | empty tag attributes =>
    '<' :: tag.toList ++ attributes.flatMap attributeText ++ "/>".toList
  | close tag => "</".toList ++ tag.toList ++ ['>']
  | text value => Markup.escape value.toList
  | cdata value => "<![CDATA[".toList ++ value.toList ++ "]]>".toList
  | comment value => "<!--".toList ++ value.toList ++ "-->".toList
  | skipped => []

/-- A line break and the indent of a level. -/
def lineBreak (level : Nat) : List Char :=
  '\n' :: List.replicate (4 * level) ' '

/-- Writes tokens from an indent level on; `inline` says that no line break may come first. -/
def layout (level : Nat) (inline : Bool) : List Token → List Char
  | [] => []
  | token :: rest =>
    let broken (level : Nat) := if inline then [] else lineBreak level
    match token with
    | text _ => token.print ++ layout level true rest
    | cdata _ => token.print ++ layout level true rest
    | start .. => broken level ++ token.print ++ layout (level + 1) false rest
    | close _ => broken (level - 1) ++ token.print ++ layout (level - 1) false rest
    | _ => broken level ++ token.print ++ layout level false rest

end Token

namespace Document

/-- The tokens of a forest. An element without children is one token. -/
def tokens : Forest Content → List Token
  | .nil => []
  | .node (.element tag attributes) .nil after => .empty tag attributes :: tokens after
  | .node (.element tag attributes) below after =>
    .start tag attributes :: tokens below ++ .close tag :: tokens after
  | .node (.text value) _ after => .text value :: tokens after
  | .node (.cdata value) _ after => .cdata value :: tokens after
  | .node (.comment value) _ after => .comment value :: tokens after

/-- The document as text, with a line break at the end. -/
def print (doc : Document) : String :=
  let head := (doc.declaration.map Token.declaration).toList
  String.ofList (Token.layout 0 true (head ++ tokens doc.forest) ++ ['\n'])

end Document

end SkillCompiler
