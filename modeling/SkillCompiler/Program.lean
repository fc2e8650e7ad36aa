import SkillCompiler.Log.Buffer
import SkillCompiler.Pipeline.Step
import SkillCompiler.Settings.Basic
import SkillCompiler.Settings.Help

/-!
# The program

The whole program as a function: from arguments, environment and files to what it prints, the files
it leaves and its exit code. The log is printed at the end, of a run that fails as well, and only if
it is wanted.
-/

namespace SkillCompiler

/-- A run that fails, and what it was about to do. -/
structure RunFailure where
  context : String
  error : CompileError
  deriving DecidableEq, Repr

namespace RunFailure

/-- The context, the error and what caused it. -/
def chain (f : RunFailure) : String :=
  ": ".intercalate (f.context :: f.error.message :: f.error.sources)

end RunFailure

namespace Report

/-- What is said of a run at its end. -/
def summary (r : Report) (outputDir : Path) : List Entry :=
  r.canonicalPath.toList.map
      (fun path => .info .program "wrote canonical statechart" [("path", path)]) ++
    r.written.map (fun path => .info .program "wrote artifact" [("path", path)]) ++
    (if r.isSuccess then []
      else [.warn .program "some events have no interface declaration"
        [("unclassified", toString r.registration.unclassified.length)]]) ++
    [.info .program "done"
      [("output", outputDir), ("files", toString r.total), ("state", r.stage.name)]]

end Report

namespace Settings

/-- Compiles a skill. -/
def compile (s : Settings) (files : FileTree) : Logged (Except RunFailure Report × FileTree) := do
  match Pipeline.ofOptions s.options with
  | .error error => return (.error ⟨"Invalid pipeline configuration", error⟩, files)
  | .ok pipeline =>
    let (outcome, w) ← Pipeline.run.run ⟨pipeline, files⟩
    match outcome with
    | .error error => return (.error ⟨"Failed to compile " ++ s.input, error⟩, w.files)
    | .ok report =>
      tell (report.summary pipeline.config.outputDir)
      return (.ok report, w.files)

end Settings

/-- What a run of the program leaves. -/
structure Outcome where
  exit : Nat
  output : String := ""
  /-- What the program says of an error. What the argument parser says of wrong arguments, and what
  is said when a log filter ends the program, is left out. -/
  complaint : String := ""
  files : FileTree

namespace Program

/-- The variable that says what is logged. -/
def logVariable : String := "RUST_LOG"

def version : String := "model2code 0.2.0\n"

/-- What the program does instead of a run. -/
def refuse (environment : String → Option String) (e : UsageError) (files : FileTree) : Outcome :=
  match e with
  | .asked .help => { exit := 0, output := Help.text environment, files }
  | .asked .version => { exit := 0, output := version, files }
  | _ => { exit := 2, files }

/-- Compiles with settings and prints the log if it is wanted. -/
def execute (f : LogFilter) (s : Settings) (files : FileTree) : Outcome :=
  let done := s.compile files
  let output := if s.verbose then (LogBuffer.ofEntries f done.log).contents else ""
  match done.value with
  | (.ok _, files) => { exit := 0, output, files }
  | (.error f, files) => { exit := 1, output, complaint := "Error: " ++ f.chain ++ "\n", files }

/-- The program. -/
def run (environment : String → Option String) (args : List String) (files : FileTree) : Outcome :=
  match Arguments.parse environment args with
  | .error e => refuse environment e files
  | .ok a =>
    match Settings.ofArguments files a with
    | .error e => { exit := 1, complaint := "Error: " ++ e.chain ++ "\n", files }
    | .ok s =>
      match LogFilter.ofChoice (environment logVariable) with
      | some f => execute f s files
      | none => { exit := 101, files }

end Program

end SkillCompiler
