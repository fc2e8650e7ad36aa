import SkillCompiler.Proofs.Canonical.Survivors
import SkillCompiler.Proofs.Interface.Classification
import SkillCompiler.Proofs.Registry.Runs
import SkillCompiler.Proofs.Synthesis.Substitution

/-!
# The event that answers a call

When a service has answered, generated code submits an event, whose name the template puts together
from the component and the function of the call. The classifier has turned the dots of a component
into slashes, because the service is declared that way, so the event has slashes where the
statechart waits for dots: the two are the same only for a component of one segment
(`reply_eq_iff`).
-/

namespace SkillCompiler

/-! ## Records of names -/

namespace Registry

variable {classify : Classify} {calls : List Call} {name : String} {a : Address} {record : Record}

theorem of_get?_run (ha : asked? name = some a)
    (h : (run classify calls).value.get? name = some record) :
    ∃ form, (classify a).value = (.ok record.classification, form) ∧
      record.address = some form := by
  rw [value_run, get?_ofSeen, Option.bind_eq_some_iff] at h
  obtain ⟨e, he, h⟩ := h
  have hname : e.name = name := by simpa using List.find?_some he
  unfold recordOf? answer at h
  rw [hname, ha] at h
  dsimp only at h
  rcases hvalue : (classify a).value with ⟨error | found, form⟩ <;> rw [hvalue] at h
  · cases h
  · cases h
    exact ⟨form, rfl, rfl⟩

theorem asked?_of_parse? (h : Address.parse? name = some a) : asked? name = some a := by
  unfold asked?
  rw [if_neg, h]
  intro hreserved
  obtain ⟨e, he⟩ := Option.isSome_iff_exists.1 hreserved
  have hname : e.name = name := by simpa using List.find?_some he
  -- A reserved name has no dots, so there is no address in it.
  have hnone : Address.parse? e.name = none := by cases e <;> decide +kernel
  rw [hname, h] at hnone
  cases hnone

end Registry

/-! ## Placeholders -/

namespace Placeholders

/-- A table of different placeholders is in the order in which it is given. -/
theorem ofList_eq_self {entries : List (String × String)} (h : (entries.map Prod.fst).Nodup) :
    ofList entries = entries := by
  have hfold : ∀ (entries : List (String × String)) (table : Placeholders),
      ((table ++ entries).map Prod.fst).Nodup →
        entries.foldl (fun table entry => set entry.1 entry.2 table) table =
          table ++ entries := by
    intro entries
    induction entries with
    | nil => simp
    | cons entry entries ih =>
      intro table h
      obtain ⟨placeholder, value⟩ := entry
      have hnew : placeholder ∉ Assoc.names table := by
        simp only [List.map_append, List.map_cons, List.nodup_append] at h
        exact fun hmem => h.2.2 _ hmem _ List.mem_cons_self rfl
      have hset : set placeholder value table = table ++ [(placeholder, value)] :=
        Assoc.insert_of_notMem hnew
      have hrest := ih (table ++ [(placeholder, value)]) (by simpa using h)
      rwa [List.append_assoc, ← hset] at hrest
  exact hfold entries [] h

theorem apply_eq_self {text : String} (h : '$' ∉ text.toList) :
    ∀ {table : Placeholders}, (∀ entry ∈ table, entry.1.toList.head? = some '$') →
      table.apply text = text
  | [], _ => rfl
  | (placeholder, value) :: table, hkeys => by
    have hhead := hkeys _ List.mem_cons_self
    have hplaceholder : Text.replaceAll placeholder value text = text := by
      refine Text.replaceAll_eq_self ?_ value fun hinfix => h ?_
      · rintro rfl
        cases hhead
      · exact hinfix.subset (List.mem_of_mem_head? hhead)
    rw [apply_cons, hplaceholder]
    exact apply_eq_self h fun entry he => hkeys entry (List.mem_cons_of_mem _ he)

/-- The event that a template submits for the answer to a call. -/
def reply : String := "$eventData.componentName$.$eventData.functionName$.Return"

theorem apply_reply {record : Record} {a : Address} (ha : record.address = some a)
    (hcomponent : '$' ∉ a.component.toList) (hfunction : '$' ∉ a.function.toList) :
    (forEvent record).apply reply = a.component ++ "." ++ a.function ++ ".Return" := by
  have hevent : Text.replaceAll "$eventData.event$" record.event.name reply = reply :=
    Text.replaceAll_eq_self (by simp) _ (by decide +kernel)
  have hfirst : Text.replaceAll "$eventData.componentName$" a.component reply =
      a.component ++ ".$eventData.functionName$.Return" := by
    have hsplit : reply = "" ++ ("$eventData.componentName$" ++
      ".$eventData.functionName$.Return") := by simp [reply]
    rw [hsplit, Text.replaceAll_append (c := '$') (by decide +kernel) (by simp),
      Text.replaceAll_eq_self (by simp) _ (by decide +kernel), String.empty_append]
  have hsecond : Text.replaceAll "$eventData.functionName$" a.function
      (a.component ++ ".$eventData.functionName$.Return") =
        a.component ++ "." ++ a.function ++ ".Return" := by
    have hsplit : a.component ++ ".$eventData.functionName$.Return" =
        (a.component ++ ".") ++ ("$eventData.functionName$" ++ ".Return") := by
      simp [String.append_assoc]
    rw [hsplit, Text.replaceAll_append (c := '$') (by decide +kernel) (by simpa using hcomponent),
      Text.replaceAll_eq_self (by simp) _ (by decide +kernel), String.append_assoc,
      String.append_assoc, String.append_assoc]
  have hplain : '$' ∉ (a.component ++ "." ++ a.function ++ ".Return").toList := by
    simp [hcomponent, hfunction]
  unfold forEvent
  simp only [ha, Option.map_some, Option.getD_some]
  rw [ofList_eq_self (by simp [messageName])]
  rw [apply_cons, hevent, apply_cons, hfirst, apply_cons, hsecond]
  exact apply_eq_self hplain (by simp [messageName])

end Placeholders

/-! ## The events of a service -/

namespace Canonical

open Document

/-- An element that names a route and may not stand for an action has an event of the segments. -/
theorem yields_route {rule : Rule} (hrule : rule ∈ Rule.all) (hsplit : rule.split = none)
    (hsame : ¬ rule.aliased) {suffix : Suffix} (hsuffix : rule.suffix = some suffix) (r : Route)
    {as : List Attribute} (hname : lookupAttribute "name" as = some r.path)
    (aliases : Assoc String) :
    Yields aliases (.element rule.source as) rule.target
      (".".intercalate r.segments ++ ("." ++ suffix.name)) := by
  have hevent : rule.event aliases r.path =
      ".".intercalate r.segments ++ ("." ++ suffix.name) := by
    rw [Rule.event_eq hrule hsuffix, Rule.resolve, if_neg hsame, r.dotted_path,
      String.append_assoc]
  rw [← hevent]
  exact yields_of_mem hrule hsplit hname aliases

theorem exists_service_rules :
    (∃ rule ∈ Rule.all, rule.source = "ros_service_send_request" ∧ rule.target = "send" ∧
      rule.split = none ∧ ¬ rule.aliased ∧ rule.suffix = some .call) ∧
    ∃ rule ∈ Rule.all, rule.source = "ros_service_handle_response" ∧
      rule.target = "transition" ∧ rule.split = none ∧ ¬ rule.aliased ∧
      rule.suffix = some .returned := by
  decide

end Canonical

/-! ## Replies and handlers -/

open Canonical Placeholders in
/-- A service of some segments is called by an event of these segments, and a handler of its answer
waits for an event of the same segments, with dots between them; both stand in the statechart where
the elements of the skill stood. The code that is generated for the call submits the event with
slashes in the component, so the handler hears the answer only if there are two segments. -/
theorem reply_eq_iff {text : String} {doc : Document} {chart : Canonical}
    (hparse : Document.parse text = .ok doc) (hchart : (canonicalize doc).result = .ok chart)
    (c : Classifier) (calls : List Registry.Call) (r : Route)
    (hplain : ∀ s ∈ r.segments, '$' ∉ s.toList) {record : Record}
    (hrecord : (Registry.run c.classify calls).value.get? (".".intercalate r.segments ++ ".Call") =
      some record)
    (hkind : record.classification.kind = some .serviceClient) :
    (chart.document.below.preorder =
      (survivors false doc.below).flatMap fun s => image (aliases doc) s.1 s.2) ∧
    (∀ as, lookupAttribute "name" as = some r.path →
      Yields (aliases doc) (.element "ros_service_send_request" as) "send"
        (".".intercalate r.segments ++ ".Call") ∧
      Yields (aliases doc) (.element "ros_service_handle_response" as) "transition"
        (".".intercalate r.segments ++ ".Return")) ∧
    (forEvent record).apply reply =
      "/".intercalate r.component ++ "." ++ r.function ++ ".Return" ∧
    ((forEvent record).apply reply = ".".intercalate r.segments ++ ".Return" ↔
      r.segments.length = 2) := by
  -- The record is about the address in the name, which the classifier gives slashes.
  have hasked : Registry.asked? (".".intercalate r.segments ++ ".Call") =
      some (r.address .call) := by
    refine Registry.asked?_of_parse? ?_
    rw [← r.parse?_dotted_path, r.dotted_path, String.append_assoc]
    rfl
  obtain ⟨form, hclassify, haddress⟩ := Registry.of_get?_run hasked hrecord
  rw [Classifier.addressForm_of_classify hclassify hkind] at haddress
  have hslashes : Interaction.serviceClient.addressForm (r.address .call) =
      ⟨"/".intercalate r.component, r.function, some .call⟩ := r.hierarchical_address .call
  rw [hslashes] at haddress
  have hcomponent : '$' ∉ ("/".intercalate r.component).toList := by
    rw [String.toList_intercalate, show "/".toList = ['/'] from rfl]
    refine Text.notMem_intercalate (by decide) fun part hpart => ?_
    obtain ⟨s, hs, rfl⟩ := List.mem_map.1 hpart
    exact hplain s (List.mem_append_left _ hs)
  have hfunction : '$' ∉ r.function.toList :=
    hplain _ (List.mem_append_right _ (List.mem_singleton_self _))
  have hreply := apply_reply haddress hcomponent hfunction
  have hsegments : ".".intercalate r.segments ++ ".Return" =
      ".".intercalate r.component ++ "." ++ r.function ++ ".Return" := by
    rw [Route.segments, String.intercalate_append_of_ne_nil r.ne_nil (by simp),
      String.intercalate_singleton]
  refine ⟨preorder_below_of_parse hparse hchart, fun as hname => ?_, hreply, ?_⟩
  · obtain ⟨⟨request, hrequest, hs, ht, hsplit, hsame, hcall⟩,
      response, hresponse, hs', ht', hsplit', hsame', hreturned⟩ := exists_service_rules
    rw [← hs, ← ht, ← hs', ← ht']
    exact ⟨yields_route hrequest hsplit hsame hcall r hname _,
      yields_route hresponse hsplit' hsame' hreturned r hname _⟩
  · rw [hreply, hsegments, String.append_left_inj, String.append_left_inj, String.append_left_inj,
      eq_comm, r.intercalate_component_iff]

def callingText : String :=
  "<s name=\"XSkill\"><ros_service_client service_name=\"/A/B/f\" type=\"p/T\"/>" ++
  "<ros_service_send_request name=\"/A/B/f\"/>" ++
  "<ros_service_handle_response name=\"/A/B/f\" target=\"t\"/></s>"

/-- A skill that calls a service of a component in another one and waits for the answer. -/
def callingSkill : Document :=
  .ofForest none (.node (.element "s" [⟨"name", "XSkill"⟩])
    (.leaf (.element "ros_service_client" [⟨"service_name", "/A/B/f"⟩, ⟨"type", "p/T"⟩]) ++
      .leaf (.element "ros_service_send_request" [⟨"name", "/A/B/f"⟩]) ++
      .leaf (.element "ros_service_handle_response" [⟨"name", "/A/B/f"⟩, ⟨"target", "t"⟩])) .nil)

def callingClassifier : Classifier where
  doc := callingSkill
  files := .empty []

/-- The route of the service. -/
def calledRoute : Route where
  component := ["A", "B"]
  function := "f"
  ne_nil := by simp
  isSegment := by
    intro s hs
    have hmem : s = "A" ∨ s = "B" ∨ s = "f" := by simpa using hs
    rcases hmem with rfl | rfl | rfl <;> exact ⟨by decide, by decide, by decide⟩

def calledRecord : Record where
  event := .send "A.B.f.Call" []
  address := some ⟨"A/B", "f", some .call⟩
  classification :=
    { kind := some .serviceClient
      messageType := "p/T"
      interfaceName := "p"
      typeName := "T" }

def callingEvents : List Event := [.transition "A.B.f.Return" "t", .send "A.B.f.Call" []]

theorem get?_callingEvents :
    (Registry.run callingClassifier.classify [.populate callingEvents]).value.get? "A.B.f.Call" =
      some calledRecord := by
  decide +kernel

open Canonical Placeholders in
theorem reply_eq_iff_calling :
    Document.parse callingText = .ok callingSkill ∧
    (canonicalize callingSkill).result.isOk ∧
    calledRecord.classification.kind = some .serviceClient ∧
    (forEvent calledRecord).apply reply = "A/B.f.Return" ∧
    Yields [] (.element "ros_service_handle_response" [⟨"name", "/A/B/f"⟩, ⟨"target", "t"⟩])
      "transition" "A.B.f.Return" ∧
    (forEvent calledRecord).apply reply ≠ "A.B.f.Return" := by
  have hparse : Document.parse callingText = .ok callingSkill := by decide +kernel
  have hok : (canonicalize callingSkill).result.isOk := by decide +kernel
  obtain ⟨chart, hchart⟩ := exists_of_isOk hok
  have hpath : calledRoute.path = "/A/B/f" := by decide +kernel
  have hcall : ".".intercalate calledRoute.segments ++ ".Call" = "A.B.f.Call" := by
    decide +kernel
  have hdots : ".".intercalate calledRoute.segments ++ ".Return" = "A.B.f.Return" := by
    decide +kernel
  have hslashes :
      "/".intercalate calledRoute.component ++ "." ++ calledRoute.function ++ ".Return" =
      "A/B.f.Return" := by decide +kernel
  have hlength : calledRoute.segments.length = 3 := rfl
  have hplain : ∀ s ∈ calledRoute.segments, '$' ∉ s.toList := by decide +kernel
  have hrecord := get?_callingEvents
  rw [← hcall] at hrecord
  obtain ⟨-, hyields, hreply, hsame⟩ :=
    reply_eq_iff hparse hchart callingClassifier _ calledRoute hplain hrecord rfl
  rw [hslashes] at hreply
  rw [hdots, hlength] at hsame
  have hhandler := (hyields [⟨"name", "/A/B/f"⟩, ⟨"target", "t"⟩] (by rw [hpath]; rfl)).2
  rw [hdots] at hhandler
  exact ⟨hparse, hok, rfl, hreply, hhandler, fun he => absurd (hsame.1 he) (by decide)⟩

open Placeholders in
/-- The events of the skill's statechart are registered, and the code submits none of them for the
answer to the call. -/
theorem reply_misses_handler :
    (Canonical.canonicalize callingSkill).result.map (fun c => Event.ofStatechart c.document) =
      .ok callingEvents ∧
    (Registry.run callingClassifier.classify [.populate callingEvents]).value.get? "A.B.f.Call" =
      some calledRecord ∧
    calledRecord.classification.kind = some .serviceClient ∧
    ∀ e ∈ callingEvents, e.name ≠ (forEvent calledRecord).apply reply := by
  have haddress : calledRecord.address = some ⟨"A/B", "f", some .call⟩ := rfl
  have hreply := apply_reply haddress (by decide) (by decide)
  refine ⟨by decide +kernel, get?_callingEvents, rfl, ?_⟩
  rw [hreply]
  decide +kernel

end SkillCompiler
