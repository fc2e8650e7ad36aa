import SkillCompiler.Document.Basic
import SkillCompiler.Markup.Scan

/-!
# Reading documents

Tokens are read into a table of nodes, one after another. The places of the elements that are still
open are kept on a stack; what comes next stands below the innermost of them and is entered at the
end of its children. Content outside the root element is dropped, a second root is refused, and an
element may still be open at the end of the text.
-/

namespace SkillCompiler

namespace Document

/-- What has been read. -/
structure Arena where
  nodes : Array Node := #[]
  /-- The places of the open elements, innermost first. -/
  stack : List NodeId := []
  /-- The names of the open elements, which closing tags have to match. -/
  opened : List String := []
  root : Option NodeId := none
  declaration : Option Declaration := none
  deriving DecidableEq, Repr

/-- Why a token cannot stand where it does. -/
inductive Misplaced where
  | secondRoot (tag : String)
  | close (fault : Markup.Fault)
  deriving DecidableEq, Repr

/-- The error a misplaced token makes at a position. -/
def Misplaced.error (position : Nat) : Misplaced → DocumentError
  | secondRoot tag => .multipleRoots tag
  | close fault => .malformed position fault

namespace Arena

/-- Enters a child at the end of the children of its parent. -/
def enter (nodes : Array Node) (parent child : NodeId) : Array Node :=
  nodes.modify parent fun n => { n with children := n.children ++ [child] }

/-- Adds an element below the innermost open one, or makes it the root. Gives its place. -/
def openElement (a : Arena) (tag : String) (attributes : List Attribute) :
    Except Misplaced (Arena × NodeId) :=
  let parent := a.stack.head?
  if parent.isNone && a.root.isSome then .error (.secondRoot tag)
  else
    let id := a.nodes.size
    let nodes := a.nodes.push ⟨.element tag attributes, parent, []⟩
    match parent with
    | some parent => .ok ({ a with nodes := enter nodes parent id }, id)
    | none => .ok ({ a with nodes, root := some id }, id)

/-- Adds a node without children below the innermost open element. Outside the root element it is
dropped. -/
def pushLeaf (a : Arena) (content : Content) : Arena :=
  match a.stack.head? with
  | none => a
  | some parent =>
    let nodes := a.nodes.push ⟨content, some parent, []⟩
    { a with nodes := enter nodes parent a.nodes.size }

/-- Takes one token. -/
def step (a : Arena) : Token → Except Misplaced Arena
  | .declaration d => .ok { a with declaration := some d }
  | .start tag attributes => do
    let (a, id) ← a.openElement tag attributes
    return { a with stack := id :: a.stack, opened := tag :: a.opened }
  | .empty tag attributes => do
    let (a, _) ← a.openElement tag attributes
    return a
  | .close name =>
    match a.opened with
    | [] => .error (.close (.unmatchedClose name))
    | tag :: opened =>
      if tag = name then .ok { a with stack := a.stack.tail, opened }
      else .error (.close (.mismatchedClose tag name))
  | .text value => .ok (a.pushLeaf (.text value))
  | .cdata value => .ok (a.pushLeaf (.cdata value))
  | .comment value => .ok (a.pushLeaf (.comment value))
  | .skipped => .ok a

/-- Takes the token of a lexeme; one that is misplaced is an error at its position. -/
def take (position : List Char → Nat) (a : Arena) (lexeme : Markup.Lexeme) :
    Except DocumentError Arena :=
  (a.step lexeme.token).mapError fun m => m.error (position lexeme.before)

/-- The document that has been read, once the text has ended. -/
def document (a : Arena) : Except DocumentError Document :=
  match a.root with
  | none => .error .noRoot
  | some root => .ok ⟨a.nodes, root, a.declaration⟩

end Arena

/-- The text of a source. One byte order mark at the start is dropped and not counted. -/
def unmarked (source : String) : List Char :=
  match source.toList with
  | '\uFEFF' :: text => text
  | text => text

/-- Reads a document. -/
def parse (source : String) : Except DocumentError Document := do
  let text := unmarked source
  let position (rest : List Char) : Nat := Text.width text - Text.width rest
  let scan := Markup.scan text
  let read ← scan.lexemes.foldlM (Arena.take position) {}
  match scan.fault with
  | some (fault, rest) => .error (.malformed (position rest) fault)
  | none => read.document

end Document

end SkillCompiler
