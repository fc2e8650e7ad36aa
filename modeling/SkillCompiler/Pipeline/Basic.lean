import SkillCompiler.Canonical.Statechart
import SkillCompiler.File.Tree
import SkillCompiler.Pipeline.Config
import SkillCompiler.Registry
import SkillCompiler.Synthesis.Artifact

/-!
# Pipelines

A pipeline takes a skill through four stages, each of which needs the one before it: the canonical
statechart, the classified events, the artifacts, the written files. It keeps what each stage made.
-/

namespace SkillCompiler

/-- How far a pipeline has come. -/
inductive Stage where
  | start
  | canonicalized
  | classified
  | synthesized
  | written
  deriving DecidableEq, Repr

namespace Stage

def name : Stage → String
  | start => "start"
  | canonicalized => "canonicalized"
  | classified => "classified"
  | synthesized => "synthesized"
  | written => "written"

end Stage

/-- A run and what it has made. -/
structure Pipeline where
  config : Config
  stage : Stage := .start
  /-- The document that declares what the events are. -/
  declarations : Option Document := none
  canonical : Option Document := none
  /-- Where the canonical statechart was written. -/
  canonicalPath : Option Path := none
  registry : Registry := .empty
  registration : Option Registration := none
  artifacts : Option Artifacts := none
  /-- Where the artifacts were written. -/
  written : List Path := []

/-- What a run came to. -/
structure Report where
  stage : Stage
  canonicalPath : Option Path
  registration : Registration
  written : List Path
  deriving DecidableEq, Repr

namespace Report

/-- A run succeeds if every event has a declaration. -/
def isSuccess (r : Report) : Bool := r.registration.isFullyClassified

/-- The number of files written. -/
def total (r : Report) : Nat := r.written.length + r.canonicalPath.toList.length

end Report

namespace Pipeline

/-- A run that has not begun. -/
def ofOptions (o : Options) : Except CompileError Pipeline := do
  return { config := ← o.config }

def report (p : Pipeline) : Report :=
  { stage := p.stage
    canonicalPath := p.canonicalPath
    registration := p.registration.getD {}
    written := p.written }

end Pipeline

end SkillCompiler
