import SkillCompiler.Document.Print
import SkillCompiler.Pipeline.Basic
import SkillCompiler.Synthesis.Render

/-!
# Steps of a pipeline

A step is work on a pipeline and the files around it. It may fail, and what it did to the files and
to the registry before that stays. Each of the four steps has to find the pipeline at its own stage
and, if it succeeds, leaves it at the next.
-/

namespace SkillCompiler

/-- A pipeline and the files it works on. -/
structure Workspace where
  pipeline : Pipeline
  files : FileTree

abbrev Step (α : Type) := ExceptT CompileError (StateT Workspace Logged) α

namespace Step

variable {α : Type}

/-- Work that changes neither the pipeline nor the files. -/
def ofCompile (x : Compile α) : Step α :=
  ExceptT.mk (StateT.lift x.run)

/-- A change to the files; `blame` says which error a fault is. -/
def change (blame : FileFault → CompileError) (action : FileAction α) : Step α :=
  ExceptT.mk fun w =>
    let (outcome, files) := action.run w.files
    pure (outcome.mapError blame, { w with files })

/-- Changes the pipeline. -/
def update (f : Pipeline → Pipeline) : Step Unit :=
  modify fun w => { w with pipeline := f w.pipeline }

/-- The text of a file. -/
def readText (blame : FileFault → CompileError) (path : Path) : Step String := do
  ofExcept (((← get).files.readText path).mapError blame)

def readDocument (path : Path) : Step Document := do
  ofCompile (Document.load (← readText (.documentFile path) path))

/-- Stops a step that is not the next one. -/
def require (step : String) (stage : Stage) : Step Unit := do
  let found := (← get).pipeline.stage
  if found ≠ stage then throw (.invalidState step stage.name found.name)

/-- What an earlier stage has made. -/
def made (step : String) (stage : Stage) (get? : Pipeline → Option α) : Step α := do
  let p := (← get).pipeline
  match get? p with
  | some a => return a
  | none => throw (.invalidState step stage.name p.stage.name)

/-! ### What a step comes to -/

variable {β : Type}

/-- How a step ends, and the pipeline and files it leaves; the log is left out. -/
def outcome (x : Step α) (w : Workspace) : Except CompileError α × Workspace := (x.run w).value

@[simp] theorem outcome_pure (a : α) (w : Workspace) :
    outcome (pure a) w = (.ok a, w) := rfl

@[simp] theorem outcome_throw (e : CompileError) (w : Workspace) :
    outcome (throw e : Step α) w = (.error e, w) := rfl

theorem outcome_bind (x : Step α) (f : α → Step β) (w : Workspace) :
    outcome (x >>= f) w =
      match outcome x w with
      | (.ok a, w') => outcome (f a) w'
      | (.error e, w') => (.error e, w') := by
  change (ExceptT.bindCont f (x.run w).value.1 (x.run w).value.2).value = _
  unfold outcome
  rcases (x.run w).value with ⟨_ | _, _⟩ <;> rfl

theorem outcome_bind_ok {x : Step α} {f : α → Step β} {w w' : Workspace} {a : α}
    (h : outcome x w = (.ok a, w')) : outcome (x >>= f) w = outcome (f a) w' := by
  rw [outcome_bind, h]

theorem outcome_bind_error {x : Step α} {f : α → Step β} {w w' : Workspace} {e : CompileError}
    (h : outcome x w = (.error e, w')) : outcome (x >>= f) w = (.error e, w') := by
  rw [outcome_bind, h]

@[simp] theorem outcome_note (entry : Entry) (w : Workspace) :
    outcome (note entry : Logged Unit) w = (.ok (), w) := rfl

@[simp] theorem outcome_update (f : Pipeline → Pipeline) (w : Workspace) :
    outcome (update f) w = (.ok (), { w with pipeline := f w.pipeline }) := rfl

theorem outcome_require (step : String) (stage : Stage) (w : Workspace) :
    outcome (require step stage) w =
      if w.pipeline.stage = stage then (.ok (), w)
      else (.error (.invalidState step stage.name w.pipeline.stage.name), w) := by
  by_cases h : w.pipeline.stage = stage
  · rw [if_pos h]
    simp only [require, outcome_bind]
    change outcome (if w.pipeline.stage ≠ stage then _ else _) w = _
    rw [if_neg (not_not_intro h)]
    rfl
  · rw [if_neg h]
    simp only [require, outcome_bind]
    change outcome (if w.pipeline.stage ≠ stage then _ else _) w = _
    rw [if_pos h]
    rfl

end Step

namespace Canonical

/-- Writes a canonical statechart into a directory. Gives the path of the file. -/
def write (c : Canonical) (dir : Path) : Step Path := do
  Step.change (.file dir) (.makeDirectories dir)
  let path := c.pathIn dir
  Step.change (.documentFile path) (.writeText path c.document.print)
  note (.info .canonical "wrote canonical statechart" [("path", path)])
  return path

end Canonical

namespace ArtifactTexts

/-- The template of one kind. -/
def loadOne (dir : Path) (kind : ArtifactKind) : Step (ArtifactKind × String) := do
  let path := dir.join kind.templatePath
  if !(← get).files.isFile path then throw (.templateNotFound path)
  let text ← Step.readText (.file path) path
  note (.debug .artifact "read template" [("path", path), ("bytes", toString text.utf8ByteSize)])
  return (kind, text)

/-- The templates in a directory, those of the data model only if they are wanted. -/
def load (dir : Path) (dataModel : Bool) : Step ArtifactTexts := do
  let texts ← (ArtifactKind.all.filter fun k => dataModel || !k.isDataModel).mapM (loadOne dir)
  note (.info .artifact "loaded templates" [("dir", dir), ("count", toString texts.length)])
  return texts

end ArtifactTexts

namespace Artifacts

/-- Writes one artifact below a directory. Gives the path of the file. -/
def writeOne (dir : Path) (names : SkillNames) (kind : ArtifactKind) (text : String) :
    Step Path := do
  let path := dir.join (kind.outputPath names)
  match path.parent? with
  | some parent => Step.change (.file parent) (.makeDirectories parent)
  | none => pure ()
  Step.change (.file path) (.writeText path text)
  note (.debug .artifact "wrote artifact" [("path", path)])
  return path

/-- Writes artifacts below a directory, in order. -/
def write (a : Artifacts) (dir : Path) : Step (List Path) := do
  let paths ← a.texts.mapM fun (kind, text) => writeOne dir a.names kind text
  note (.info .artifact "wrote artifacts" [("dir", dir), ("count", toString paths.length)])
  return paths

end Artifacts

namespace Pipeline

/-- Makes the canonical statechart and writes it. A run that does not translate takes the input for
it. -/
def canonicalize : Step Unit := do
  Step.require "canonicalize" .start
  let config := (← get).pipeline.config
  let input ← Step.readDocument config.input
  if config.mode.translates then
    let canonical ← Step.ofCompile (Canonical.canonicalize input)
    let path ← canonical.write (config.outputDir.join "src")
    Step.update ({ · with canonical := some canonical.document, canonicalPath := some path })
  else
    note (.info .pipeline "using input as canonical statechart" [("input", config.input)])
    Step.update ({ · with canonical := some input })
  Step.update ({ · with declarations := some input, stage := .canonicalized })

/-- What classifies the events of a run. -/
def classifier (config : Config) (declarations : Document) : Step Classifier := do
  let files := (← get).files
  let library ← match config.interfaceDir with
    | some dir => Step.ofCompile (Library.scan files dir)
    | none => pure []
  let interfaces ← config.interfaceModel.mapM fun path => do
    Step.ofCompile (InterfaceModel.load (← Step.readText (.documentFile path) path))
  let components ← config.componentModel.mapM fun path => do
    Step.ofCompile (ComponentModel.load (← Step.readText (.documentFile path) path))
  return { doc := declarations, files, library := some library, interfaces, components }

/-- Registers the events of the canonical statechart. -/
def classify : Step Registration := do
  Step.require "classify" .canonicalized
  let declarations ← Step.made "classify" .canonicalized (·.declarations)
  let canonical ← Step.made "classify" .canonicalized (·.canonical)
  let classifier ← classifier (← get).pipeline.config declarations
  let events ← Event.collect canonical
  let (outcome, registry) ← (← get).pipeline.registry.populate classifier.classify events
  Step.update ({ · with registry })
  let sum ← ofExcept outcome
  if !sum.isFullyClassified then
    note (.warn .pipeline "events without a matching declaration"
      [("events", Text.quotedList sum.unclassified)])
  note (.info .pipeline "classified events" [("registered", toString sum.registered),
    ("duplicates", toString sum.duplicates), ("reserved", toString sum.reserved)])
  Step.update ({ · with registration := some sum, stage := .classified })
  return sum

/-- Makes the artifacts. -/
def synthesize : Step Artifacts := do
  Step.require "synthesize" .classified
  let canonical ← Step.made "synthesize" .classified (·.canonical)
  let some root := canonical.attribute? canonical.root "name" | throw .missingRootName
  let names ← ofExcept (SkillNames.ofRoot root)
  let p := (← get).pipeline
  let templates ← ArtifactTexts.load p.config.templateDir p.config.dataModel
  let artifacts ← Artifacts.synthesize templates p.config.dataModel names p.registry
  Step.update ({ · with artifacts := some artifacts, stage := .synthesized })
  return artifacts

/-- Writes the artifacts. -/
def write : Step (List Path) := do
  Step.require "write" .synthesized
  let artifacts ← Step.made "write" .synthesized (·.artifacts)
  let paths ← artifacts.write (← get).pipeline.config.outputDir
  Step.update ({ · with written := paths, stage := .written })
  return paths

/-- Takes the steps that the mode asks for. -/
def run : Step Report := do
  let config := (← get).pipeline.config
  note (.info .pipeline "starting pipeline" [("input", config.input), ("mode", config.mode.name)])
  canonicalize
  if config.mode.generates then
    let _ ← classify
    let _ ← synthesize
    let _ ← write
  return (← get).pipeline.report

end Pipeline

end SkillCompiler
