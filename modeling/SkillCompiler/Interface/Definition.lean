import SkillCompiler.Assoc
import SkillCompiler.Text.Blank
import SkillCompiler.Text.Lines

/-!
# Interface definitions

A definition is text with a field on each line: its type, then its name. A line of three dashes
starts a new section: a service has a request and a response, an action also feedback. What follows
a number sign is a comment, and a name with an equals sign declares a constant, which is no field.
-/

namespace SkillCompiler

structure Field where
  type : String
  name : String
  deriving DecidableEq, Repr

/-- The sections of a definition, each with its fields. -/
structure Definition where
  sections : List (List Field)
  deriving DecidableEq, Repr

/-- A line that is no field, with its number from one. -/
structure DefinitionError where
  line : Nat
  text : String
  deriving DecidableEq, Repr

def DefinitionError.message (e : DefinitionError) : String :=
  "expected 'type name', found '" ++ e.text ++ "'"

/-- What a line of a definition says. -/
inductive DefinitionLine where
  | nothing
  | separator
  | field (f : Field)
  deriving DecidableEq, Repr

namespace Definition

/-- Reads a line without its comment; the rest has to be at least two words. -/
def readLine (number : Nat) (line : List Char) : Except DefinitionError DefinitionLine :=
  let text := Text.trim (line.takeWhile (· ≠ '#'))
  if text = [] then .ok .nothing
  else if text = ['-', '-', '-'] then .ok .separator
  else
    match Text.words text with
    | type :: name :: _ =>
      if name.contains '=' then .ok .nothing
      else .ok (.field ⟨String.ofList type, String.ofList name⟩)
    | _ => .error ⟨number, String.ofList text⟩

/-- Reads lines numbered from `number` on into the current section and those after it. -/
def readLines (number : Nat) :
    List (List Char) → Except DefinitionError (List Field × List (List Field))
  | [] => .ok ([], [])
  | line :: rest => do
    let said ← readLine number line
    let (current, more) ← readLines (number + 1) rest
    match said with
    | .nothing => return (current, more)
    | .separator => return ([], current :: more)
    | .field f => return (f :: current, more)

def parse (text : String) : Except DefinitionError Definition := do
  let (first, more) ← readLines 1 (Text.lines text)
  return ⟨first :: more⟩

/-- A section by its number from zero; one that is not there has no fields. -/
def fields (d : Definition) (index : Nat) : List Field :=
  d.sections[index]?.getD []

/-- The request of a service, the goal of an action or the whole of a message. -/
def request (d : Definition) : List Field := d.fields 0

/-- The response of a service or the result of an action. -/
def response (d : Definition) : List Field := d.fields 1

/-- The feedback of an action. -/
def feedback (d : Definition) : List Field := d.fields 2

/-- The type of each field, in order of first appearance; the first declaration counts. -/
def fieldTypes (d : Definition) : Assoc String :=
  d.sections.flatten.foldl (fun types f => types.insertNew f.name f.type) []

end Definition

end SkillCompiler
