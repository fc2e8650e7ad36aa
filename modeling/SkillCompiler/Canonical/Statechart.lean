import SkillCompiler.Canonical.Rule
import SkillCompiler.Document.Load
import SkillCompiler.Document.Query
import SkillCompiler.Skill.Names

/-!
# Canonical statecharts

`canonicalize` turns a skill document into a statechart that holds only transitions and sends. It
works on one document in passes: the root takes its new name, declarations are detached, the rules
are applied in order, and expressions are made to speak of the event payload.
-/

namespace SkillCompiler

/-- A canonical statechart and the names of its skill. -/
structure Canonical where
  document : Document
  names : SkillNames
  deriving DecidableEq, Repr

namespace Canonical

/-- The namespace of statecharts. -/
def namespaceName : String := "http://www.w3.org/2005/07/scxml"

/-- The tags of declarations, which a statechart does without. -/
def declarationTags : List String :=
  ["ros_service_server", "ros_service_client", "ros_topic_publisher", "ros_topic_subscriber",
    "ros_action_client"]

/-- Service types that only a skill with a halt command offers. -/
def haltTypes : List String :=
  ["bt_interfaces/HaltAction", "bt_interfaces_dummy/HaltAction"]

/-- How expressions speak of a payload before they speak of the event. -/
def payloadWords : List String :=
  ["_msg.", "_res.", "_feedback.", "_wrapped_result.result."]

/-- A skill that offers to be halted is an action. -/
def kindOf (doc : Document) : SkillKind :=
  if haltTypes.any fun t =>
      (doc.findContaining? doc.root "ros_service_server" "type" t).isSome then .action
  else .condition

/-- The local name and the action of a client. -/
def aliasAt? (doc : Document) (id : NodeId) : Option (String × String) :=
  match doc.attribute? id "name", doc.attribute? id "action_name" with
  | some name, some action => some (name, action)
  | _, _ => none

/-- The actions behind the local names of action clients; the last client with a name counts. -/
def aliases (doc : Document) : Assoc String :=
  ((doc.withTag doc.root "ros_action_client").filterMap (aliasAt? doc)).foldl
    (fun table (name, action) => table.insert name action) []

def aliasNotes (doc : Document) : List Entry :=
  ((doc.withTag doc.root "ros_action_client").filter fun id => (aliasAt? doc id).isNone).map
    fun _ => .warn .canonical "ros_action_client without name and action_name" []

/-- Detaches every element with a tag. -/
def detachAll (doc : Document) (tag : String) : Except DocumentError Document :=
  (doc.withTag doc.root tag).foldlM (fun doc id => Document.expect (doc.detach id)) doc

/-- Removes the `type` of every `data` element. -/
def dropDataTypes (doc : Document) : Document :=
  (doc.withTag doc.root "data").foldl (fun doc id => (doc.removeAttribute id "type").2) doc

/-- Gives an element the event of its name, if it has one. -/
def renameEvent (rule : Rule) (aliases : Assoc String) (doc : Document) (id : NodeId) :
    Compile Document := do
  match doc.attribute? id "event" with
  | some name =>
    let event := rule.event aliases name
    note (.debug .canonical "renamed event" [("from", name), ("to", event)])
    Compile.edit (doc.setAttribute id "event" event)
  | none =>
    note (.warn .canonical "element has no name, leaving event unset"
      [("tag", Text.quoted rule.source)])
    return doc

/-- Puts an accepting and a rejecting transition in the place of a handler. A handler that does not
name both targets only takes the new tag. -/
def splitHandler (target : String) (split : Split) (doc : Document) (id : NodeId) :
    Compile Document := do
  let event := (doc.attribute? id "event").getD ""
  match doc.attribute? id split.accept, doc.attribute? id split.reject with
  | some accept, some reject =>
    let (doc, accepted) := doc.createElement target
      [⟨"event", event⟩, ⟨"cond", split.acceptCond⟩, ⟨"target", accept⟩]
    let (doc, rejected) := doc.createElement target
      [⟨"event", event⟩, ⟨"cond", split.rejectCond⟩, ⟨"target", reject⟩]
    let doc ← Compile.edit (doc.insertAfter id accepted)
    let doc ← Compile.edit (doc.insertAfter accepted rejected)
    let doc ← Compile.edit (doc.detach id)
    note (.debug .canonical "expanded goal response"
      [("event", event), ("accept", accept), ("reject", reject)])
    return doc
  | _, _ =>
    note (.warn .canonical "goal response handler without accept and reject targets"
      [("event", event)])
    Compile.edit (doc.setTag id target)

/-- Applies a rule to one element. -/
def applyAt (rule : Rule) (aliases : Assoc String) (doc : Document) (id : NodeId) :
    Compile Document := do
  let doc := rule.renames.foldl (fun doc (old, new) => (doc.renameAttribute id old new).2) doc
  let doc ← renameEvent rule aliases doc id
  let doc ← Compile.document <|
    if rule.fieldsToParams then
      (doc.withTag id "field").foldlM (fun doc field =>
        Document.expect (doc.setTag field "param")) doc
    else .ok doc
  let doc ← Compile.document <|
    match if rule.respondsInCond then doc.attribute? id "cond" else none with
    | some cond =>
      Document.expect (doc.setAttribute id "cond" (Text.replaceFirst "_res." eventData cond))
    | none => .ok doc
  match rule.split with
  | some split => splitHandler rule.target split doc id
  | none => Compile.edit (doc.setTag id rule.target)

/-- Applies a rule to every element that has its tag now. -/
def apply (rule : Rule) (aliases : Assoc String) (doc : Document) : Compile Document := do
  match doc.withTag doc.root rule.source with
  | [] => return doc
  | ids =>
    note (.debug .canonical "applying rewrite rule"
      [("tag", Text.quoted rule.source), ("count", toString ids.length)])
    ids.foldlM (applyAt rule aliases) doc

/-- An expression that speaks of the event payload: the first of each payload word is replaced. -/
def withEventData (expr : String) : String :=
  payloadWords.foldl (fun expr word => Text.replaceFirst word eventData expr) expr

/-- Makes every assigned expression speak of the event payload. -/
def updateAssigns (doc : Document) : Except DocumentError Document :=
  (doc.withTag doc.root "assign").foldlM (fun doc id =>
    match doc.attribute? id "expr" with
    | some expr =>
      if withEventData expr = expr then .ok doc
      else Document.expect (doc.setAttribute id "expr" (withEventData expr))
    | none => .ok doc) doc

/-- The canonical statechart of a skill. -/
def canonicalize (source : Document) : Compile Canonical := do
  let root := source.root
  let kind := kindOf source
  let names ← Attempt.ofExcept <|
    SkillNames.withKind ((source.attribute? root "name").getD "") kind
  note (.info .canonical "canonicalizing skill"
    [("skill", names.skill), ("kind", kind.name), ("sm_name", names.machine)])
  let doc ← Compile.edit (source.setAttribute root "name" names.machine)
  let table := aliases doc
  tell (aliasNotes doc)
  let doc ← Compile.document (declarationTags.foldlM detachAll doc)
  let doc ← Compile.edit (doc.setAttribute root "xmlns" namespaceName)
  let doc ← Rule.all.foldlM (fun doc rule => apply rule table doc) (dropDataTypes doc)
  let doc ← Compile.document (updateAssigns doc)
  return ⟨doc, names⟩

/-- Where the statechart is written in a directory. -/
def pathIn (c : Canonical) (dir : Path) : Path := dir.join c.names.canonicalFile

end Canonical

end SkillCompiler
