import SkillCompiler.Template.Basic

/-!
# Fragments and anchors

A fragment is a region that is cut out of the templates and written once for every event that needs
it. An anchor is a marker at which such text is inserted. Fragments are cut out in a fixed order,
those inside others first, so that the outer ones are saved without them.
-/

namespace SkillCompiler

inductive Fragment where
  | param
  | returnParam
  | topicParam
  | sendEventService
  | topicCallback
  | topicSubscription
  | actionSource
  | sendParam
  | feedbackParam
  | feedbackParamFnc
  | feedbackData
  | actionSendGoal
  | actionResultRequest
  | actionFeedback
  | actionSendGoalFnc
  | actionResultCallbackFnc
  | actionFeedbackFnc
  | actionResponseCallbackFnc
  | interface
  | topicInterface
  | topicCallbackHeader
  | topicSubscriptionHeader
  | actionHeader
  | actionInterface
  | buildInterface
  | buildPackage
  | packageInterface
  deriving DecidableEq, Repr

namespace Fragment

/-- The fragments in the order in which they are cut out. -/
def all : List Fragment :=
  [param, returnParam, topicParam, sendEventService, topicCallback, topicSubscription,
   actionSource, sendParam, feedbackParam, feedbackParamFnc, feedbackData, actionSendGoal,
   actionResultRequest, actionFeedback, actionSendGoalFnc, actionResultCallbackFnc,
   actionFeedbackFnc, actionResponseCallbackFnc, interface, topicInterface, topicCallbackHeader,
   topicSubscriptionHeader, actionHeader, actionInterface, buildInterface, buildPackage,
   packageInterface]

def name : Fragment → String
  | param => "Param"
  | returnParam => "ReturnParam"
  | topicParam => "TopicParam"
  | sendEventService => "SendEventService"
  | topicCallback => "TopicCallback"
  | topicSubscription => "TopicSubscription"
  | actionSource => "ActionSource"
  | sendParam => "SendParam"
  | feedbackParam => "FeedbackParam"
  | feedbackParamFnc => "FeedbackParamFnc"
  | feedbackData => "FeedbackData"
  | actionSendGoal => "ActionSendGoal"
  | actionResultRequest => "ActionResultRequest"
  | actionFeedback => "ActionFeedback"
  | actionSendGoalFnc => "ActionSendGoalFnc"
  | actionResultCallbackFnc => "ActionResultCallbackFnc"
  | actionFeedbackFnc => "ActionFeedbackFnc"
  | actionResponseCallbackFnc => "ActionResponseCallbackFnc"
  | interface => "Interface"
  | topicInterface => "TopicInterface"
  | topicCallbackHeader => "TopicCallbackHeader"
  | topicSubscriptionHeader => "TopicSubscriptionHeader"
  | actionHeader => "ActionHeader"
  | actionInterface => "ActionInterface"
  | buildInterface => "BuildInterface"
  | buildPackage => "BuildPackage"
  | packageInterface => "PackageInterface"

/-- The region that a fragment stands in. -/
def region : Fragment → Region
  | param => .named .block "PARAM"
  | returnParam => .named .block "RETURN_PARAM"
  | topicParam => .named .block "TOPIC_PARAM"
  | sendEventService => .named .block "SEND_EVENT_SRV"
  | topicCallback => .named .block "TOPIC_CALLBACK"
  | topicSubscription => .named .block "TOPIC_SUBSCRIPTION"
  | actionSource => .named .block "ACTION_C"
  | sendParam => .named .block "SEND_PARAM"
  | feedbackParam => .named .block "FEEDBACK_PARAM"
  | feedbackParamFnc => .named .block "FEEDBACK_PARAM_FNC"
  | feedbackData => .named .block "FEEDBACK_DATA"
  | actionSendGoal => .named .block "ACTION_SEND_GOAL"
  | actionResultRequest => .named .block "ACTION_RESULT_REQUEST"
  | actionFeedback => .named .block "ACTION_FEEDBACK"
  | actionSendGoalFnc => .named .block "ACTION_SEND_GOAL_FNC"
  | actionResultCallbackFnc => .named .block "ACTION_RESULT_CALLBACK_FNC"
  | actionFeedbackFnc => .named .block "ACTION_FEEDBACK_FNC"
  | actionResponseCallbackFnc => .named .block "ACTION_RESPONSE_CALLBACK_FNC"
  | interface => .named .block "INTERFACE"
  | topicInterface => .named .block "TOPIC_INTERFACE"
  | topicCallbackHeader => .named .block "TOPIC_CALLBACK_H"
  | topicSubscriptionHeader => .named .block "TOPIC_SUBSCRIPTION_H"
  | actionHeader => .named .block "ACTION_H"
  | actionInterface => .named .block "ACTION_INTERFACE"
  | buildInterface => .named .hash "INTERFACE"
  | buildPackage => .named .hash "PACKAGE"
  | packageInterface => .named .angle "INTERFACE"

end Fragment

inductive Anchor where
  | sendEventList
  | paramList
  | returnParamList
  | sendParamList
  | topicSubscriptionsList
  | topicCallbackList
  | topicParamList
  | actionListSource
  | feedbackParamList
  | feedbackParamListFnc
  | feedbackDataList
  | actionLambdaList
  | actionFncList
  | interfacesList
  | topicSubscriptionsListHeader
  | topicCallbackListHeader
  | actionListHeader
  | buildInterfaceList
  | buildPackageList
  | packageInterfaceList
  deriving DecidableEq, Repr

namespace Anchor

/-- The anchors in the order in which they are cleared. -/
def all : List Anchor :=
  [sendEventList, paramList, returnParamList, sendParamList, topicSubscriptionsList,
   topicCallbackList, topicParamList, actionListSource, feedbackParamList, feedbackParamListFnc,
   feedbackDataList, actionLambdaList, actionFncList, interfacesList,
   topicSubscriptionsListHeader, topicCallbackListHeader, actionListHeader, buildInterfaceList,
   buildPackageList, packageInterfaceList]

def name : Anchor → String
  | sendEventList => "SendEventList"
  | paramList => "ParamList"
  | returnParamList => "ReturnParamList"
  | sendParamList => "SendParamList"
  | topicSubscriptionsList => "TopicSubscriptionsList"
  | topicCallbackList => "TopicCallbackList"
  | topicParamList => "TopicParamList"
  | actionListSource => "ActionListSource"
  | feedbackParamList => "FeedbackParamList"
  | feedbackParamListFnc => "FeedbackParamListFnc"
  | feedbackDataList => "FeedbackDataList"
  | actionLambdaList => "ActionLambdaList"
  | actionFncList => "ActionFncList"
  | interfacesList => "InterfacesList"
  | topicSubscriptionsListHeader => "TopicSubscriptionsListHeader"
  | topicCallbackListHeader => "TopicCallbackListHeader"
  | actionListHeader => "ActionListHeader"
  | buildInterfaceList => "BuildInterfaceList"
  | buildPackageList => "BuildPackageList"
  | packageInterfaceList => "PackageInterfaceList"

def marker : Anchor → Marker
  | sendEventList => ⟨.block, "SEND_EVENT_LIST"⟩
  | paramList => ⟨.block, "PARAM_LIST"⟩
  | returnParamList => ⟨.block, "RETURN_PARAM_LIST"⟩
  | sendParamList => ⟨.block, "SEND_PARAM_LIST"⟩
  | topicSubscriptionsList => ⟨.block, "TOPIC_SUBSCRIPTIONS_LIST"⟩
  | topicCallbackList => ⟨.block, "TOPIC_CALLBACK_LIST"⟩
  | topicParamList => ⟨.block, "TOPIC_PARAM_LIST"⟩
  | actionListSource => ⟨.block, "ACTION_LIST_C"⟩
  | feedbackParamList => ⟨.block, "FEEDBACK_PARAM_LIST"⟩
  | feedbackParamListFnc => ⟨.block, "FEEDBACK_PARAM_LIST_FNC"⟩
  | feedbackDataList => ⟨.block, "FEEDBACK_DATA_LIST"⟩
  | actionLambdaList => ⟨.block, "ACTION_LAMBDA_LIST"⟩
  | actionFncList => ⟨.block, "ACTION_FNC_LIST"⟩
  | interfacesList => ⟨.block, "INTERFACES_LIST"⟩
  | topicSubscriptionsListHeader => ⟨.block, "TOPIC_SUBSCRIPTIONS_LIST_H"⟩
  | topicCallbackListHeader => ⟨.block, "TOPIC_CALLBACK_LIST_H"⟩
  | actionListHeader => ⟨.block, "ACTION_LIST_H"⟩
  | buildInterfaceList => ⟨.hash, "INTERFACE_LIST"⟩
  | buildPackageList => ⟨.hash, "PACKAGE_LIST"⟩
  | packageInterfaceList => ⟨.angle, "INTERFACE_LIST"⟩

end Anchor

/-- The texts of the fragments that were cut out. -/
abbrev FragmentTable := List (Fragment × String)

namespace FragmentTable

def get? (table : FragmentTable) (fragment : Fragment) : Option String :=
  (table.find? fun entry => entry.1 = fragment).map Prod.snd

/-- Saves a text unless the fragment has one. -/
def save (table : FragmentTable) (fragment : Fragment) (text : String) : FragmentTable :=
  if (table.get? fragment).isSome then table else table ++ [(fragment, text)]

/-- Cuts one fragment out of a template and saves its text. -/
def cut (fragment : Fragment) (table : FragmentTable) (t : Template) :
    FragmentTable × Template :=
  (match t.extract fragment.region with
    | some text => table.save fragment text
    | none => table,
    t.delete fragment.region)

def cutNotes (fragment : Fragment) (table : FragmentTable) (t : Template) : List Entry :=
  (if (t.extract fragment.region).isSome && (table.get? fragment).isNone then
    [.debug .fragment "saved fragment" [("fragment", fragment.region.opening.token)]]
  else []) ++ t.deleteNotes fragment.region

/-- Cuts every fragment out of a template. -/
def collect (table : FragmentTable) (t : Template) : Logged (FragmentTable × Template) :=
  Fragment.all.foldlM (fun (table, t) fragment =>
    ⟨cut fragment table t, cutNotes fragment table t⟩) (table, t)

end FragmentTable

end SkillCompiler
