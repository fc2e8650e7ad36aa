import SkillCompiler.Assoc
import SkillCompiler.Event.Name

/-!
# Rules for tags

A rule turns one middleware tag into a transition or a send. The event of the new element comes from
the name of the old one: a command is replaced by its reserved event, an action client's local name
by the name of its action, and the path is put in dotted form with the suffix of the rule.
-/

namespace SkillCompiler

/-- How one handler becomes two transitions: the attributes that name the two targets and the
conditions of the two transitions. -/
structure Split where
  accept : String
  reject : String
  acceptCond : String
  rejectCond : String
  deriving DecidableEq, Repr

structure Rule where
  /-- The tag that is replaced. -/
  source : String
  /-- The tag it becomes. -/
  target : String
  /-- Attributes that are renamed first. -/
  renames : List (String × String) := [("name", "event")]
  suffix : Option Suffix := none
  /-- The events that stand for names with `tick` and `halt` in them. -/
  commands : Option (ReservedEvent × ReservedEvent) := none
  /-- Whether the name may be the local name of an action client. -/
  aliased : Bool := false
  /-- Whether `field` elements inside become `param` elements. -/
  fieldsToParams : Bool := false
  /-- Whether the condition speaks of a response. -/
  respondsInCond : Bool := false
  split : Option Split := none
  deriving DecidableEq, Repr

/-- How the event payload is written in expressions. -/
def eventData : String := "_event.data."

namespace Rule

/-- The rules, in the order in which they are applied. -/
def all : List Rule := [
  { source := "ros_service_handle_request", target := "transition",
    commands := some (.cmdTick, .cmdHalt) },
  { source := "ros_service_send_request", target := "send", suffix := some .call,
    fieldsToParams := true },
  { source := "ros_service_handle_response", target := "transition", suffix := some .returned,
    respondsInCond := true },
  { source := "ros_service_send_response", target := "send",
    commands := some (.tickResponse, .haltResponse), fieldsToParams := true },
  { source := "ros_topic_callback", target := "transition", suffix := some .sub },
  { source := "ros_action_send_goal", target := "send", suffix := some .sendGoal,
    aliased := true, fieldsToParams := true },
  { source := "ros_action_handle_goal_response", target := "transition",
    suffix := some .goalResponse, aliased := true,
    split := some ⟨"accept", "reject", "_event.data.is_ok", "_event.data.is_ok == false"⟩ },
  { source := "ros_action_handle_feedback", target := "transition",
    suffix := some .feedbackReturn, aliased := true },
  { source := "ros_action_handle_success_result", target := "transition",
    suffix := some .resultResponse, aliased := true },
  { source := "ros_action_handle_cancel_result", target := "transition",
    suffix := some .cancelResult, aliased := true },
  { source := "ros_action_send_cancel", target := "send", suffix := some .sendCancel,
    aliased := true }]

/-- The command that a name stands for. -/
def command? (rule : Rule) (name : String) : Option ReservedEvent :=
  rule.commands.bind fun (tick, halt) =>
    if Text.contains "tick" name then some tick
    else if Text.contains "halt" name then some halt
    else none

/-- The event that a name becomes. -/
def event (rule : Rule) (aliases : Assoc String) (name : String) : String :=
  match rule.command? name with
  | some command => command.name
  | none =>
    let name := if rule.aliased then (aliases.get? name).getD name else name
    match rule.suffix with
    | some suffix => dotted name ++ "." ++ suffix.name
    | none => dotted name

end Rule

end SkillCompiler
