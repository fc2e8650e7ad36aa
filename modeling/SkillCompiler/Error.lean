import SkillCompiler.Document.Basic
import SkillCompiler.File.Fault
import SkillCompiler.Path

/-!
# Why a skill cannot be compiled

Each error is a cause. `CompileError.message` words it, and `CompileError.sources` gives the
messages of what caused it in turn, outermost first.
-/

namespace SkillCompiler

/-- Why a skill cannot be compiled. -/
inductive CompileError where
  | document (error : DocumentError)
  /-- A document cannot be read from its file or written to it. -/
  | documentFile (path : Path) (fault : FileFault)
  | missingRootName
  | invalidSkillName (name : String)
  | missingSkillType (name : String)
  /-- An element that belongs to a declaration is not there. -/
  | missingDeclaration (element address : String)
  | missingAttribute (element name : String)
  | invalidDefinition (path : Path) (line : Nat) (message : String)
  | templateNotFound (path : Path)
  /-- A step of the pipeline is not the next one. -/
  | invalidState (step expected found : String)
  | file (path : Path) (fault : FileFault)
  /-- A directory of definitions cannot be searched. -/
  | search (fault : SearchFault)
  | noInput
  | noOutput (input : Path)
  deriving DecidableEq, Repr

namespace CompileError

def onFile (path : Path) (fault : FileFault) : String :=
  "IO error on '" ++ path ++ "': " ++ fault.message

def message : CompileError → String
  | document e => "Document error: " ++ e.message
  | documentFile path fault => "Document error: " ++ onFile path fault
  | missingRootName => "Root element has no 'name' attribute or it is empty"
  | invalidSkillName name =>
    "Invalid skill name: '" ++ name ++
      "'. The root name must contain 'Skill' (e.g. 'NavSkill')"
  | missingSkillType name =>
    "Missing skill type in '" ++ name ++
      "'. Expected a suffix after 'Skill' (e.g. 'NavSkillAction')"
  | missingDeclaration element address =>
    "No <" ++ element ++ "> element found for '" ++ address ++ "'"
  | missingAttribute element name => "Missing attribute '" ++ name ++ "' on <" ++ element ++ ">"
  | invalidDefinition path line message =>
    "Invalid interface definition " ++ path ++ ":" ++ toString line ++ ": " ++ message
  | templateNotFound path => "Template not found: " ++ path
  | invalidState step expected found =>
    "Pipeline step '" ++ step ++ "' requires state " ++ expected ++ ", but the pipeline is " ++
      found
  | file path fault => onFile path fault
  | search fault => "Directory traversal error: " ++ fault.message
  | noInput => "No input file configured"
  | noOutput input => "Cannot derive an output directory from '" ++ input ++ "'"

/-- The messages of the causes below this one. -/
def sources : CompileError → List String
  | document e => [e.message]
  | documentFile path fault => [onFile path fault, fault.message]
  | file _ fault => [fault.message]
  | search fault => fault.message :: fault.sources
  | _ => []

end CompileError

end SkillCompiler
