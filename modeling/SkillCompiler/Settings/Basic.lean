import SkillCompiler.File.Tree
import SkillCompiler.Settings.Arguments
import SkillCompiler.Settings.File

/-!
# Settings

What a run is told by its command line, its environment and a settings file, in this order of
precedence.
-/

namespace SkillCompiler

structure Settings where
  input : Path
  outputDir : Option Path
  templateDir : Path
  interfaceDir : Option Path
  interfaceModel : Option Path
  componentModel : Option Path
  mode : Mode
  dataModel : Bool
  verbose : Bool
  deriving DecidableEq, Repr

/-- Why there are no settings. -/
inductive SettingsError where
  | unreadable (path : Path) (fault : FileFault)
  | invalid (path : Path)
  deriving DecidableEq, Repr

namespace SettingsError

def message : SettingsError → String
  | unreadable path _ => "Failed to read config file " ++ path
  | invalid path => "Invalid config file " ++ path

/-- The message and those of what caused it. -/
def chain (e : SettingsError) : String :=
  match e with
  | unreadable _ fault => e.message ++ ": " ++ fault.message
  | invalid _ => e.message

end SettingsError

namespace FileSettings

/-- The settings in a file. -/
def load (files : FileTree) (path : Path) : Except SettingsError FileSettings :=
  match files.readText path with
  | .error fault => .error (.unreadable path fault)
  | .ok text =>
    match parse? text with
    | none => .error (.invalid path)
    | some settings => .ok settings

end FileSettings

namespace Settings

/-- What the arguments say, else the file, else what holds by default. -/
def merge (a : Arguments) (file : FileSettings) : Settings :=
  { input := a.input
    outputDir := a.outputDir.or file.outputDir
    templateDir := (a.templateDir.or file.templateDir).getD defaultTemplateDir
    interfaceDir := a.interfaceDir.or file.interfaceDir
    interfaceModel := a.interfaceModel
    componentModel := a.componentModel
    mode := .ofFlags a.translate a.generate
    dataModel := a.dataModel || file.dataModel.getD false
    verbose := a.verbose || file.verbose.getD false }

/-- The settings that arguments lead to. -/
def ofArguments (files : FileTree) (a : Arguments) : Except SettingsError Settings := do
  let file ← match a.settingsFile with
    | some path => FileSettings.load files path
    | none => .ok {}
  return merge a file

/-- The settings as far as a pipeline needs them. -/
def options (s : Settings) : Options :=
  { input := some s.input
    outputDir := s.outputDir
    templateDir := some s.templateDir
    interfaceDir := s.interfaceDir
    interfaceModel := s.interfaceModel
    componentModel := s.componentModel
    mode := s.mode
    dataModel := s.dataModel }

end Settings

end SkillCompiler
