import SkillCompiler.Error
import SkillCompiler.Text.LowerCase
import SkillCompiler.Text.Search

/-!
# Skill names

A skill is named by its root name, which holds the word `Skill`. What stands before the first such
word is the skill's own name and what stands after it is its type. All names in generated code are
made from these.
-/

namespace SkillCompiler

/-- Whether a skill runs for a while and can be halted, or is a check. -/
inductive SkillKind where
  | action
  | condition
  deriving DecidableEq, Repr

namespace SkillKind

def name : SkillKind → String
  | action => "Action"
  | condition => "Condition"

/-- The kind that a skill type stands for; all but one word are conditions. -/
def ofType (skillType : String) : SkillKind :=
  if skillType = action.name then action else condition

end SkillKind

/-- The word in every root name. -/
def skillWord : String := "Skill"

/-- An underscore before each capital but the first character, and all in lower case. Only the
Latin letters A to Z have case here; other characters stay. -/
def snakeCase (name : String) : String :=
  match name.toList with
  | [] => ""
  | c :: rest =>
    String.ofList (c.toLower ::
      rest.flatMap fun c => if c.isUpper then ['_', c.toLower] else [c.toLower])

/-- The names of a skill: of its state machine, its own, and its type. -/
structure SkillNames where
  machine : String
  skill : String
  skillType : String
  deriving DecidableEq, Repr

namespace SkillNames

/-- The texts around the first `Skill` of a root name. -/
def splitRoot (root : String) : Except CompileError (String × String) :=
  if root.isEmpty then .error .missingRootName
  else
    match Text.cut? skillWord.toList root.toList with
    | some (before, after) => .ok (String.ofList before, String.ofList after)
    | none => .error (.invalidSkillName root)

/-- The names in a root name that says the type. -/
def ofRoot (root : String) : Except CompileError SkillNames := do
  let (skill, skillType) ← splitRoot root
  if skillType.isEmpty then .error (.missingSkillType root)
  else return ⟨root, skill, skillType⟩

/-- The names of a skill whose kind is known; a type in the root name gives way. -/
def withKind (root : String) (kind : SkillKind) : Except CompileError SkillNames := do
  let (skill, _) ← splitRoot root
  return ⟨skill ++ skillWord ++ kind.name, skill, kind.name⟩

def kind (names : SkillNames) : SkillKind := .ofType names.skillType

def className (names : SkillNames) : String := names.skill ++ skillWord

def classSnakeCase (names : SkillNames) : String := snakeCase names.className

def typeLowerCase (names : SkillNames) : String := Text.lower names.skillType

def dataModelClass (names : SkillNames) : String := names.className ++ "DataModel"

/-- The file name of the canonical statechart. -/
def canonicalFile (names : SkillNames) : String := names.className ++ "SM.scxml"

end SkillNames

end SkillCompiler
