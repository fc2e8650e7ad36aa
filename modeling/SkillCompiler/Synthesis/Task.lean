import SkillCompiler.Synthesis.Fragment
import SkillCompiler.Synthesis.Placeholder

/-!
# What an event adds to an artifact

A record is turned into tasks, and a task puts one text at one anchor: a fragment with the lists
inside it filled, a dependency, which is put in once only, or an item of a list that stands in the
artifact itself.
-/

namespace SkillCompiler

/-- Items for the anchors inside a fragment. -/
abbrev ItemLists := List (Anchor × List String)

inductive Task where
  /-- Puts a fragment with its lists filled at an anchor. -/
  | place (fragment : Fragment) (anchor : Anchor) (values : Placeholders) (lists : ItemLists)
  /-- Puts a dependency on a package at an anchor, unless it is there. -/
  | depend (fragment : Fragment) (anchor : Anchor) (values : Placeholders) (package : String)
  /-- Leaves out the dependencies on a virtual package. -/
  | leaveOut (package : String)
  /-- Puts an item at an anchor. -/
  | fill (anchor : Anchor) (item : String)
  deriving DecidableEq, Repr

namespace Task

/-- A copy of a fragment for each name, with placeholders replaced. -/
def items (table : FragmentTable) (fragment : Fragment) (values : Placeholders)
    (names : List String) (substitute : String → String → String) : List String :=
  match table.get? fragment with
  | none => []
  | some text => names.map fun name => values.apply (substitute text name)

/-- Puts a name in place of a placeholder. -/
def named (placeholder : String) (text name : String) : String :=
  Text.replaceAll placeholder name text

/-- Puts the expression that reads a response field in place of the field, and then the field. -/
def responseField (found : Classification) (text field : String) : String :=
  Text.replaceAll Placeholders.field field
    (Text.replaceAll ("response->" ++ Placeholders.field)
      (responseAccessor field (found.fieldType field)) text)

/-- Puts a field and its type in place of their placeholders. -/
def typedField (found : Classification) (text field : String) : String :=
  Text.replaceAll Placeholders.field field
    (Text.replaceAll Placeholders.fieldType (found.fieldType field) text)

/-- The dependencies of an interface. -/
def dependencies (found : Classification) (values : Placeholders) : List Task :=
  if found.isVirtual then [leaveOut found.interfaceName]
  else
    [depend .buildInterface .buildInterfaceList values found.interfaceName,
      depend .buildPackage .buildPackageList values found.interfaceName,
      depend .packageInterface .packageInterfaceList values found.interfaceName]

/-- The items of lists as tasks of their own. -/
def fills (lists : ItemLists) : List Task :=
  lists.flatMap fun (anchor, items) => items.map (fill anchor)

def serviceCall (table : FragmentTable) (record : Record) (values : Placeholders) : List Task :=
  let found := record.classification
  let lists : ItemLists := [
    (.paramList, items table .param values record.event.params.names
      (named Placeholders.param)),
    (.returnParamList, items table .returnParam values found.responseFields
      (responseField found)),
    (.sendParamList, items table .returnParam values found.requestFields
      (named Placeholders.field))]
  [place .sendEventService .sendEventList values lists,
    place .interface .interfacesList values []] ++ dependencies found values

def sendGoal (table : FragmentTable) (record : Record) (values : Placeholders) : List Task :=
  let lists : ItemLists := [
    (.sendParamList, items table .sendParam values record.event.params.names
      (named Placeholders.param))]
  [place .actionSendGoal .actionLambdaList values lists,
    place .actionSendGoalFnc .actionFncList values lists,
    place .actionHeader .actionListHeader values lists,
    place .actionSource .actionListSource values lists,
    place .actionInterface .interfacesList values []] ++
    dependencies record.classification values ++ fills lists

def topicSubscription (table : FragmentTable) (record : Record) (values : Placeholders) :
    List Task :=
  let found := record.classification
  let lists : ItemLists := [
    (.topicParamList, items table .topicParam values found.topicFields
      (named Placeholders.field))]
  let includes := values.set Placeholders.messageName (snakeCase found.typeName)
  [place .topicSubscription .topicSubscriptionsList values lists,
    place .topicCallback .topicCallbackList values lists,
    place .topicInterface .interfacesList includes [],
    place .topicSubscriptionHeader .topicSubscriptionsListHeader values [],
    place .topicCallbackHeader .topicCallbackListHeader values []] ++
    dependencies found values ++ fills lists

def feedback (table : FragmentTable) (record : Record) (values : Placeholders) : List Task :=
  let found := record.classification
  let lists : ItemLists := [
    (.feedbackParamList, items table .feedbackParam values found.feedbackFields
      (named Placeholders.field)),
    (.feedbackParamListFnc, items table .feedbackParamFnc values found.feedbackFields
      (named Placeholders.field)),
    (.feedbackDataList, items table .feedbackData values found.feedbackFields
      (typedField found))]
  [place .actionFeedbackFnc .actionFncList values lists,
    place .actionFeedback .actionLambdaList values lists] ++ fills lists

/-- The tasks of a classified event, by what it is and the phase it stands for. Some phases need no
code. -/
def ofFamily (table : FragmentTable) (record : Record) (family : Family) : Option (List Task) :=
  let values := Placeholders.forEvent record
  match record.event.kind, family, record.address.bind Address.suffix with
  | .send, .service, _ => some (serviceCall table record values)
  | .send, .action, some .sendGoal => some (sendGoal table record values)
  | .transition, .topic, _ => some (topicSubscription table record values)
  | .transition, .action, some .feedbackReturn => some (feedback table record values)
  | .transition, .action, some .goalResponse =>
    some [place .actionResponseCallbackFnc .actionFncList values []]
  | .transition, .action, some .resultResponse =>
    some [place .actionResultCallbackFnc .actionFncList values [],
      place .actionResultRequest .actionLambdaList values []]
  | _, _, _ => none

/-- The tasks of a record. Reserved and unclassified events have none. -/
def ofRecord (table : FragmentTable) (record : Record) : Option (List Task) :=
  if record.event.reserved?.isSome then none
  else (record.classification.kind.map Interaction.family).bind (ofFamily table record)

/-- What there is to remark about a record without tasks. -/
def skipNotes (table : FragmentTable) (record : Record) : List Entry :=
  if record.event.reserved?.isSome then []
  else
    match record.classification.kind with
    | none => [.debug .synthesis "skipping unclassified event" [("event", record.event.name)]]
    | some kind =>
      if (ofFamily table record kind.family).isSome then []
      else
        [.debug .synthesis "no fragments for event"
          [("event", record.event.name), ("kind", record.event.kind.tag)]]

end Task

end SkillCompiler
