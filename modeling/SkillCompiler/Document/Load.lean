import SkillCompiler.Document.Parse
import SkillCompiler.Error
import SkillCompiler.Log.Entry

/-!
# Documents as part of compiling

Reading and editing a document inside the compiler: errors become compile errors, and a document
that has been read is noted.
-/

namespace SkillCompiler

/-- A step of compiling a skill. -/
abbrev Compile (α : Type) := Attempt CompileError α

/-- Work on documents as part of compiling. -/
def Compile.document {α : Type} (x : Except DocumentError α) : Compile α :=
  Attempt.ofExcept (x.mapError .document)

/-- The document after an edit, which has to succeed for compiling to go on. -/
def Compile.edit {α : Type} (edited : Except DocumentError α × Document) : Compile Document :=
  Compile.document (Document.expect edited)

namespace Document

/-- Reads a document and notes its size. -/
def load (source : String) : Compile Document := do
  let doc ← Compile.document (parse source)
  note (.debug .document "parsed XML document" [("nodes", toString doc.size)])
  return doc

end Document

end SkillCompiler
