import SkillCompiler.Error

/-!
# What a pipeline is to do

A configuration names the files a run reads and where it writes. Without an output directory the
run writes two levels above its input.
-/

namespace SkillCompiler

/-- Which parts of the work a run does. -/
inductive Mode where
  | full
  | translateOnly
  | generateOnly
  deriving DecidableEq, Repr

namespace Mode

def name : Mode → String
  | full => "Full"
  | translateOnly => "TranslateOnly"
  | generateOnly => "GenerateOnly"

/-- The mode asked for by two switches; neither asks for both. -/
def ofFlags (translate generate : Bool) : Mode :=
  match translate, generate with
  | true, false => translateOnly
  | false, true => generateOnly
  | _, _ => full

/-- Whether a canonical statechart is made and written. -/
def translates (mode : Mode) : Bool := mode ≠ generateOnly

/-- Whether artifacts are made and written. -/
def generates (mode : Mode) : Bool := mode ≠ translateOnly

end Mode

/-- The templates of a run that names none. -/
def defaultTemplateDir : Path := "./templates/skills/template_skill/"

/-- The directory two levels above a file. -/
def defaultOutputDir? (input : Path) : Option Path := do
  let above ← (← input.parent?).parent?
  return if above.isEmpty then "." else above

/-- What a run may be told. -/
structure Options where
  input : Option Path := none
  outputDir : Option Path := none
  templateDir : Option Path := none
  interfaceDir : Option Path := none
  interfaceModel : Option Path := none
  componentModel : Option Path := none
  mode : Mode := .full
  dataModel : Bool := false
  deriving DecidableEq, Repr

/-- What a run has to know. -/
structure Config where
  input : Path
  outputDir : Path
  templateDir : Path
  interfaceDir : Option Path
  interfaceModel : Option Path
  componentModel : Option Path
  mode : Mode
  dataModel : Bool
  deriving DecidableEq, Repr

/-- Fills in what was not told. -/
def Options.config (o : Options) : Except CompileError Config := do
  let some input := o.input | .error .noInput
  let some outputDir := o.outputDir.or (defaultOutputDir? input) | .error (.noOutput input)
  return {
    input, outputDir
    templateDir := o.templateDir.getD defaultTemplateDir
    interfaceDir := o.interfaceDir
    interfaceModel := o.interfaceModel
    componentModel := o.componentModel
    mode := o.mode
    dataModel := o.dataModel }

end SkillCompiler
