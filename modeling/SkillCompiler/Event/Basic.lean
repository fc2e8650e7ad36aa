import SkillCompiler.Assoc
import SkillCompiler.Document.Query
import SkillCompiler.Event.Name
import SkillCompiler.Log.Entry

/-!
# Events of a statechart

A statechart waits for events on its transitions and emits events by its sends. `Event.ofStatechart`
lists the transitions first, then the sends, each in document order. A transition without a target
is left out.
-/

namespace SkillCompiler

inductive EventKind where
  | transition
  | send
  deriving DecidableEq, Repr

/-- The tag of the element that holds the event. -/
def EventKind.tag : EventKind → String
  | transition => "transition"
  | send => "send"

/-- An event with the target of its transition, or the parameters of its send in order. -/
structure Event where
  name : String
  kind : EventKind
  target : Option String
  params : Assoc String
  deriving DecidableEq, Repr

namespace Event

def transition (name target : String) : Event := ⟨name, .transition, some target, []⟩

def send (name : String) (params : Assoc String) : Event := ⟨name, .send, none, params⟩

/-- The reserved event that an event is, if any. -/
def reserved? (e : Event) : Option ReservedEvent := ReservedEvent.ofName? e.name

/-- The parameters inside a send; one that is named again takes the later expression. -/
def paramsAt (doc : Document) (id : NodeId) : Assoc String :=
  (doc.withTag id "param").foldl (fun params p =>
    Assoc.insert ((doc.attribute? p "name").getD "") ((doc.attribute? p "expr").getD "") params) []

def transitionAt? (doc : Document) (id : NodeId) : Option Event :=
  match doc.attribute? id "event", doc.attribute? id "target" with
  | some name, some target => some (transition name target)
  | _, _ => none

def sendAt? (doc : Document) (id : NodeId) : Option Event :=
  (doc.attribute? id "event").map fun name => send name (paramsAt doc id)

def transitionIds (doc : Document) : List NodeId := doc.withAttribute doc.root "transition" "event"

def sendIds (doc : Document) : List NodeId := doc.withAttribute doc.root "send" "event"

/-- The events of a statechart. -/
def ofStatechart (doc : Document) : List Event :=
  (transitionIds doc).filterMap (transitionAt? doc) ++ (sendIds doc).filterMap (sendAt? doc)

def transitionNote (doc : Document) (id : NodeId) : Entry :=
  match transitionAt? doc id with
  | some e => .debug .event "found transition" [("event", e.name), ("target", e.target.getD "")]
  | none =>
    let name :=
      match doc.attribute? id "event" with
      | some name => "Some(" ++ Text.quoted name ++ ")"
      | none => "None"
    .warn .event "skipping <transition> without event and target" [("event", name)]

def sendNote? (doc : Document) (id : NodeId) : Option Entry :=
  (sendAt? doc id).map fun e =>
    .debug .event "found send" [("event", e.name), ("params", toString e.params.length)]

/-- The events of a statechart, each noted. -/
def collect (doc : Document) : Logged (List Event) :=
  ⟨ofStatechart doc,
    (transitionIds doc).map (transitionNote doc) ++ (sendIds doc).filterMap (sendNote? doc)⟩

end Event

end SkillCompiler
