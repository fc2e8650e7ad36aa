import SkillCompiler.Settings.Arguments
import SkillCompiler.Text.Search

/-!
# Help

How the program is called: a line per flag, and beside it what the flag is for. A flag whose value a
variable can give shows that variable and its value.
-/

namespace SkillCompiler

namespace ValueFlag

/-- What stands for the value. -/
def placeholder : ValueFlag → String
  | outputDir | interfaceDir | templateDir => "<DIR>"
  | _ => "<FILE>"

def about : ValueFlag → String
  | input => "High-level skill statechart (canonical statechart with --generate_mode)"
  | outputDir => "Output directory [default: two levels above the input file]"
  | componentModel => "Component model XML"
  | interfaceModel => "Interface model XML"
  | interfaceDir => "Root of the interface definitions (`<package>/srv/<Name>.srv`, ...)"
  | templateDir => "Template directory [default: ./templates/skills/template_skill/]"
  | settingsFile => "TOML configuration file"

end ValueFlag

namespace Switch

def about : Switch → String
  | dataModel => "Also generate the data-model sources"
  | translate => "Only write the canonical statechart"
  | generate => "Only generate sources, reading the input as a canonical statechart"
  | verbose => "Print the run log to stdout"

end Switch

namespace Flag

/-- The flag as it is written on a command line. -/
def usage : Flag → String
  | value f => "--" ++ f.name ++ " " ++ f.placeholder
  | f => "--" ++ f.name

/-- The letter that may stand for a flag, or room for it. -/
def letter : Flag → String
  | question .help => "  -h, "
  | question .version => "  -V, "
  | _ => "      "

def about (environment : String → Option String) : Flag → String
  | value f =>
    match f.environmentName? with
    | none => f.about
    | some name => f.about ++ " [env: " ++ name ++ "=" ++ (environment name).getD "" ++ "]"
  | switch s => s.about
  | question .help => "Print help"
  | question .version => "Print version"

end Flag

namespace Help

/-- Where the second column starts. -/
def column : Nat := (Flag.all.map (·.usage.length)).foldl max 0 + 8

def blanks (n : Nat) : String := String.ofList (List.replicate n ' ')

/-- The line on one flag. It goes on in the second column if the value of a variable has more
lines. -/
def entry (environment : String → Option String) (flag : Flag) : String :=
  let first := flag.letter ++ flag.usage
  let about := Text.replaceAll "\n" ("\n" ++ blanks column) (flag.about environment)
  first ++ blanks (column - first.length) ++ about ++ "\n"

/-- What is said of the program. -/
def about : String :=
  "Command-line skill compiler: high-level ROS skill statecharts to canonical SCXML and C++ sources"

def text (environment : String → Option String) : String :=
  about ++ "\n\nUsage: model2code [OPTIONS] " ++ (Flag.value .input).usage ++ "\n\nOptions:\n" ++
    String.join (Flag.all.map (entry environment))

end Help

end SkillCompiler
