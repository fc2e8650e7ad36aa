import SkillCompiler.Path
import SkillCompiler.Skill.Names

/-!
# Artifacts

The files that are generated for a skill, each from a template of its own.
-/

namespace SkillCompiler

inductive ArtifactKind where
  | header
  | source
  | dataModelHeader
  | dataModelSource
  | main
  | cmakeLists
  | packageManifest
  deriving DecidableEq, Repr

namespace ArtifactKind

/-- The artifacts in the order in which they are made. -/
def all : List ArtifactKind :=
  [header, source, dataModelHeader, dataModelSource, main, cmakeLists, packageManifest]

def name : ArtifactKind → String
  | header => "Header"
  | source => "Source"
  | dataModelHeader => "DataModelHeader"
  | dataModelSource => "DataModelSource"
  | main => "Main"
  | cmakeLists => "CMakeLists"
  | packageManifest => "PackageManifest"

/-- The template in the template directory. -/
def templatePath : ArtifactKind → Path
  | header => "include/TemplateSkill.h"
  | source => "src/TemplateSkill.cpp"
  | dataModelHeader => "include/TemplateSkillDataModel.h"
  | dataModelSource => "src/TemplateSkillDataModel.cpp"
  | main => "src/main.cpp"
  | cmakeLists => "CMakeLists.txt"
  | packageManifest => "package.xml"

/-- The file in the output directory. -/
def outputPath (names : SkillNames) : ArtifactKind → Path
  | header => Path.join "include" (names.className ++ ".h")
  | source => Path.join "src" (names.className ++ ".cpp")
  | dataModelHeader => Path.join "include" (names.className ++ "DataModel.h")
  | dataModelSource => Path.join "src" (names.className ++ "DataModel.cpp")
  | main => "src/main.cpp"
  | cmakeLists => "CMakeLists.txt"
  | packageManifest => "package.xml"

/-- Whether the artifact is made only with a data model. -/
def isDataModel : ArtifactKind → Bool
  | dataModelHeader => true
  | dataModelSource => true
  | _ => false

end ArtifactKind

/-- A text for each of some artifacts, in order. -/
abbrev ArtifactTexts := List (ArtifactKind × String)

namespace ArtifactTexts

/-- Sets the text of an artifact, in place if it has one. -/
def set (kind : ArtifactKind) (text : String) : ArtifactTexts → ArtifactTexts
  | [] => [(kind, text)]
  | entry :: rest =>
    if entry.1 = kind then (kind, text) :: rest else entry :: set kind text rest

def ofList (entries : List (ArtifactKind × String)) : ArtifactTexts :=
  entries.foldl (fun texts (kind, text) => set kind text texts) []

end ArtifactTexts

/-- The generated files of a skill. -/
structure Artifacts where
  names : SkillNames
  texts : ArtifactTexts
  deriving DecidableEq, Repr

end SkillCompiler
