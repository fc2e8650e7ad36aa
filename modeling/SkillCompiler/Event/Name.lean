import SkillCompiler.Text.Search

/-!
# Event names

Four names are reserved for the exchange with the caller that ticks and halts the skill. Every other
event name is an address in dotted form: a component, which may have dots of its own, a function,
and a suffix that says the phase of the interaction. Names that fall short of that have no address.
-/

namespace SkillCompiler

/-- An event exchanged with the caller. -/
inductive ReservedEvent where
  | cmdTick
  | cmdHalt
  | tickResponse
  | haltResponse
  deriving DecidableEq, Repr

namespace ReservedEvent

def all : List ReservedEvent := [cmdTick, cmdHalt, tickResponse, haltResponse]

def name : ReservedEvent → String
  | cmdTick => "CMD_TICK"
  | cmdHalt => "CMD_HALT"
  | tickResponse => "TICK_RESPONSE"
  | haltResponse => "HALT_RESPONSE"

def ofName? (name : String) : Option ReservedEvent :=
  all.find? fun e => e.name = name

end ReservedEvent

/-- The phase of an interaction that an event stands for. -/
inductive Suffix where
  | call
  | returned
  | sub
  | sendGoal
  | goalResponse
  | feedbackReturn
  | resultResponse
  | cancelResult
  | sendCancel
  deriving DecidableEq, Repr

namespace Suffix

def all : List Suffix :=
  [call, returned, sub, sendGoal, goalResponse, feedbackReturn, resultResponse, cancelResult,
    sendCancel]

def name : Suffix → String
  | call => "Call"
  | returned => "Return"
  | sub => "Sub"
  | sendGoal => "SendGoal"
  | goalResponse => "GoalResponse"
  | feedbackReturn => "FeedbackReturn"
  | resultResponse => "ResultResponse"
  | cancelResult => "CancelResult"
  | sendCancel => "SendCancel"

def ofName? (name : String) : Option Suffix :=
  all.find? fun s => s.name = name

end Suffix

/-- Turns a path into dotted form: one slash at the front is dropped, the others become dots. -/
def dotted (path : String) : String :=
  match path.toList with
  | '/' :: rest => Text.replaceChar '/' '.' (String.ofList rest)
  | _ => Text.replaceChar '/' '.' path

/-- Who an event is about. -/
structure Address where
  component : String
  function : String
  suffix : Option Suffix
  deriving DecidableEq, Repr

namespace Address

/-- The address in an event name, if it has one: at least two segments that are not empty, besides
a suffix at the end. -/
def parse? (name : String) : Option Address :=
  let segments := (name.toList.splitOn '.').map String.ofList
  let suffix := segments.getLast?.bind Suffix.ofName?
  let rest := if suffix.isSome then segments.dropLast else segments
  if rest.length < 2 || rest.any String.isEmpty then none
  else rest.getLast?.map fun function => ⟨".".intercalate rest.dropLast, function, suffix⟩

/-- The path of the address as it is named. -/
def path (a : Address) : String :=
  "/" ++ a.component ++ "/" ++ a.function

/-- The address with slashes for dots. -/
def hierarchical (a : Address) : Address :=
  { a with
    component := Text.replaceChar '.' '/' a.component
    function := Text.replaceChar '.' '/' a.function }

/-- The path with slashes for dots. -/
def hierarchicalPath (a : Address) : String :=
  a.hierarchical.path

end Address

end SkillCompiler
