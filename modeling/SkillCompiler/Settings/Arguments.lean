import SkillCompiler.Pipeline.Config
import SkillCompiler.Text.Search

/-!
# Command lines

A command line gives flags, some with a value that stands after an equals sign or in the next
argument. Arguments are read from left to right. A value that is an argument of its own is checked
only when the next flag that is known is reached, or the end: an argument that is no flag at all is
complained of before that.
-/

namespace SkillCompiler

/-- A flag with a value. -/
inductive ValueFlag where
  | input
  | outputDir
  | componentModel
  | interfaceModel
  | interfaceDir
  | templateDir
  | settingsFile
  deriving DecidableEq, Repr

namespace ValueFlag

def all : List ValueFlag :=
  [input, outputDir, componentModel, interfaceModel, interfaceDir, templateDir, settingsFile]

def name : ValueFlag → String
  | input => "input_filename"
  | outputDir => "output_path"
  | componentModel => "model_filename"
  | interfaceModel => "interface_filename"
  | interfaceDir => "interface_path"
  | templateDir => "template_path"
  | settingsFile => "config"

/-- The variable that gives the value when the command line does not. -/
def environmentName? : ValueFlag → Option String
  | interfaceDir => some "MODEL2CODE_INTERFACE_PATH"
  | templateDir => some "MODEL2CODE_TEMPLATE_PATH"
  | _ => none

end ValueFlag

/-- A flag without a value. -/
inductive Switch where
  | dataModel
  | translate
  | generate
  | verbose
  deriving DecidableEq, Repr

namespace Switch

def all : List Switch := [dataModel, translate, generate, verbose]

def name : Switch → String
  | dataModel => "datamodel_mode"
  | translate => "translate_mode"
  | generate => "generate_mode"
  | verbose => "verbose_mode"

end Switch

/-- A question that a command line may ask instead of starting a run. -/
inductive Question where
  | help
  | version
  deriving DecidableEq, Repr

/-- Why a command line does not start a run. -/
inductive UsageError where
  | asked (question : Question)
  | unknownArgument
  | invalidValue
  | tooManyValues
  | repeated
  | missingInput
  deriving DecidableEq, Repr

/-- Anything that two dashes may introduce. -/
inductive Flag where
  | value (flag : ValueFlag)
  | switch (switch : Switch)
  | question (question : Question)
  deriving DecidableEq, Repr

namespace Flag

def name : Flag → String
  | value f => f.name
  | switch s => s.name
  | question .help => "help"
  | question .version => "version"

/-- All flags; that of the settings file stands behind the switches. -/
def all : List Flag :=
  (ValueFlag.all.erase .settingsFile).map value ++ Switch.all.map switch ++
    [value .settingsFile, question .help, question .version]

/-- The flag with a name; names are not shortened. -/
def ofName? (name : String) : Option Flag := all.find? fun f => f.name = name

end Flag

/-- What stands in one argument. -/
inductive Argument where
  /-- Two dashes alone: flags end here. -/
  | endOfFlags
  /-- Two dashes, a name and perhaps a value. -/
  | long (name : String) (value : Option String)
  /-- One dash and a letter, with what follows it. -/
  | short (letter : Char)
  | plain (text : String)
  deriving DecidableEq, Repr

namespace Argument

def ofString (text : String) : Argument :=
  match text.toList with
  | ['-', '-'] => .endOfFlags
  | '-' :: '-' :: rest =>
    .long (String.ofList (rest.takeWhile (· ≠ '=')))
      (match rest.dropWhile (· ≠ '=') with
        | _ :: value => some (String.ofList value)
        | [] => none)
  | '-' :: letter :: _ => .short letter
  | _ => .plain text

end Argument

/-- What has been read of a command line. -/
structure Reading where
  values : List (ValueFlag × String) := []
  switches : List Switch := []
  /-- A flag whose value is to come, or has come and is not checked yet. -/
  waiting : Option (ValueFlag × Option String) := none
  deriving DecidableEq, Repr

namespace Reading

def value? (r : Reading) (flag : ValueFlag) : Option String :=
  (r.values.find? fun entry => entry.1 = flag).map Prod.snd

/-- Takes a value, which must not be empty, for a flag that has none. -/
def take (r : Reading) (flag : ValueFlag) (value : String) : Except UsageError Reading :=
  if (r.value? flag).isSome then .error .repeated
  else if value.isEmpty then .error .invalidValue
  else .ok { r with values := r.values ++ [(flag, value)] }

/-- Checks the value of the flag before. -/
def settle (r : Reading) : Except UsageError Reading :=
  match r.waiting with
  | none => .ok r
  | some (_, none) => .error .invalidValue
  | some (flag, some value) => { r with waiting := none }.take flag value

/-- Reads one argument before the end of flags. -/
def read (r : Reading) : Argument → Except UsageError Reading
  | .endOfFlags => .ok r
  | .long name attached =>
    match Flag.ofName? name, attached with
    | none, _ => .error .unknownArgument
    | some (.value flag), none => do return { ← r.settle with waiting := some (flag, none) }
    | some (.value flag), some value => do (← r.settle).take flag value
    | some _, some _ => .error .tooManyValues
    | some (.switch s), none => do
      let r ← r.settle
      if s ∈ r.switches then .error .repeated else return { r with switches := r.switches ++ [s] }
    | some (.question q), none => do
      let _ ← r.settle
      .error (.asked q)
  | .short letter => do
    let question ← match letter with
      | 'h' => .ok .help
      | 'V' => .ok .version
      | _ => .error .unknownArgument
    let _ ← r.settle
    .error (.asked question)
  | .plain text =>
    match r.waiting with
    | some (flag, none) => .ok { r with waiting := some (flag, some text) }
    | _ => .error .unknownArgument

/-- Reads arguments; nothing may stand after the end of flags. -/
def readAll (r : Reading) : List String → Except UsageError Reading
  | [] => r.settle
  | text :: rest =>
    match Argument.ofString text, rest with
    | .endOfFlags, [] => r.settle
    | .endOfFlags, _ :: _ => .error .unknownArgument
    | argument, rest => do (← r.read argument).readAll rest

/-- Takes the value of a variable for a flag that has none. -/
def takeVariable (environment : String → Option String) (r : Reading) (flag : ValueFlag) :
    Except UsageError Reading :=
  match r.value? flag, flag.environmentName?.bind environment with
  | none, some value => r.take flag value
  | _, _ => .ok r

end Reading

/-- A command line that starts a run. -/
structure Arguments where
  input : Path
  outputDir : Option Path := none
  componentModel : Option Path := none
  interfaceModel : Option Path := none
  interfaceDir : Option Path := none
  templateDir : Option Path := none
  settingsFile : Option Path := none
  dataModel : Bool := false
  translate : Bool := false
  generate : Bool := false
  verbose : Bool := false
  deriving DecidableEq, Repr

namespace Arguments

def ofReading (r : Reading) : Except UsageError Arguments :=
  match r.value? .input with
  | none => .error .missingInput
  | some input => .ok {
      input
      outputDir := r.value? .outputDir
      componentModel := r.value? .componentModel
      interfaceModel := r.value? .interfaceModel
      interfaceDir := r.value? .interfaceDir
      templateDir := r.value? .templateDir
      settingsFile := r.value? .settingsFile
      dataModel := .dataModel ∈ r.switches
      translate := .translate ∈ r.switches
      generate := .generate ∈ r.switches
      verbose := .verbose ∈ r.switches }

/-- Reads a command line, without the name of the program. -/
def parse (environment : String → Option String) (args : List String) :
    Except UsageError Arguments := do
  let r ← Reading.readAll {} args
  ofReading (← ValueFlag.all.foldlM (Reading.takeVariable environment) r)

end Arguments

end SkillCompiler
