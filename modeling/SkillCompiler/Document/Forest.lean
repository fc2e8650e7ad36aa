import SkillCompiler.Document.Basic
import SkillCompiler.Forest

/-!
# Documents and forests

`Document.forest` reads the tree of a document off its table of nodes.
-/

namespace SkillCompiler

namespace Document

/-- The trees at some places, down to a depth. -/
def treesAt (doc : Document) : (depth : Nat) → List NodeId → Forest Content
  | 0, _ => .nil
  | depth + 1, ids =>
    ids.foldr (fun id after =>
      match doc.content? id with
      | some content => .node content (doc.treesAt depth (doc.children id)) after
      | none => after) .nil

/-- The tree at the root. No tree is deeper than the document has nodes. -/
def forest (doc : Document) : Forest Content :=
  doc.treesAt doc.size [doc.root]

end Document

end SkillCompiler
