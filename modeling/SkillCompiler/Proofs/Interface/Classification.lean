import SkillCompiler.Proofs.Document.Arena
import SkillCompiler.Interface.Classification
import SkillCompiler.Proofs.Event.Name
import SkillCompiler.Proofs.Log

/-!
# Events find their declarations

A rule names an event after the path of an element, and the classifier looks for declarations of the
paths that the event name may stand for. If the skill declares a service client, a topic subscriber
or an action client at the path, with the elements that belong to it, the event is of that kind,
unless a kind that is tried earlier has a declaration for the address (`classify_translated`).
-/

namespace SkillCompiler

/-- An element below the root has a tag, and an attribute of it a value. -/
def Document.HasElement (doc : Document) (tag name value : String) : Prop :=
  ∃ id ∈ doc.descendants doc.root, doc.hasTag id tag ∧ doc.attribute? id name = some value

theorem Document.isSome_findAttribute? {doc : Document} {tag name value : String} :
    (doc.findAttribute? doc.root tag name value).isSome ↔ doc.HasElement tag name value := by
  rw [findAttribute?, List.find?_isSome]
  simp [HasElement]

instance (doc : Document) (tag name value : String) : Decidable (doc.HasElement tag name value) :=
  decidable_of_iff _ Document.isSome_findAttribute?

/-- A skill declares an interaction at a route, with the elements that belong to it. -/
inductive Declares (doc : Document) (r : Route) : Interaction → Prop
  | serviceClient {id : NodeId}
      (first : doc.findAttribute? doc.root "ros_service_client" "service_name" r.path = some id)
      (type : (doc.attribute? id "type").isSome)
      (request : doc.HasElement "ros_service_send_request" "name" r.path)
      (response : doc.HasElement "ros_service_handle_response" "name" r.path) :
      Declares doc r .serviceClient
  | topicSubscriber
      (declaration : doc.HasElement "ros_topic_subscriber" "topic" r.path)
      (callback : doc.HasElement "ros_topic_callback" "name" r.path) :
      Declares doc r .topicSubscriber
  | actionClient (two : r.segments.length = 2)
      (declaration : doc.HasElement "ros_action_client" "action_name" r.path) :
      Declares doc r .actionClient

namespace Classifier

variable {c : Classifier} {a : Address} {kind : Interaction} {id : NodeId} {path : String}

/-! ## The kind that is found -/

theorem isSome_declaration? :
    (c.declaration? kind path).isSome ↔ c.doc.HasElement kind.tag kind.addressAttribute path :=
  Document.isSome_findAttribute?

/-- A declaration counts if no kind that is tried before has one. -/
theorem match?_eq_some (h : c.declaration? kind (kind.addressForm a).path = some id)
    (hearlier : ∀ earlier ∈ Interaction.all.takeWhile (· ≠ kind),
      ¬ c.doc.HasElement earlier.tag earlier.addressAttribute (earlier.addressForm a).path) :
    c.match? a = some (kind, id) := by
  have hsplit : ∃ later,
      Interaction.all = Interaction.all.takeWhile (· ≠ kind) ++ kind :: later := by
    cases kind <;> exact ⟨_, rfl⟩
  obtain ⟨later, hsplit⟩ := hsplit
  have hnone : (Interaction.all.takeWhile (· ≠ kind)).findSome? (fun kind =>
      (c.declaration? kind (kind.addressForm a).path).map (kind, ·)) = none := by
    refine List.findSome?_eq_none_iff.2 fun earlier he => ?_
    rw [Option.map_eq_none_iff, ← Option.not_isSome_iff_eq_none, isSome_declaration?]
    exact hearlier earlier he
  rw [match?, hsplit, List.findSome?_append, hnone, Option.none_or, List.findSome?_cons, h]
  rfl

theorem value_classify (h : c.match? a = some (kind, id)) :
    (c.classify a).value =
      ((c.classifyBy kind id (kind.addressForm a)).result, kind.addressForm a) := by
  rw [classify, h]
  rfl

/-! ## What is said about it -/

theorem paired_eq_ok {tag name : String} (h : c.doc.HasElement tag "name" name) :
    ∃ id, c.paired tag name = .ok id := by
  obtain ⟨id, hid⟩ := Option.isSome_iff_exists.1 (Document.isSome_findAttribute?.2 h)
  exact ⟨id, by rw [paired, hid]⟩

theorem requiredAttribute_eq_ok {name value : String} (h : c.doc.attribute? id name = some value) :
    c.requiredAttribute kind id name = .ok value := by
  rw [requiredAttribute, h]

theorem kind_withModels (found : Classification) : (c.withModels a found).kind = found.kind := by
  unfold withModels
  dsimp only
  split
  · rfl
  · split <;> rfl

/-- Without a library only the declaration and its elements can be missing something. -/
theorem result_classifyBy (hlibrary : c.library = none) {found : Classification}
    (h : (c.extract kind id a.path).result = .ok found) :
    (c.classifyBy kind id a).result = .ok (c.withModels a found.withDefaults) := by
  have hresolve : (c.resolveTypes found).result = .ok found.withDefaults := by
    rw [resolveTypes, hlibrary]
    rfl
  rw [classifyBy, Attempt.result_bind, h, Except.ok_bind, Attempt.result_bind, hresolve,
    Except.ok_bind]
  rfl

theorem attribute?_of_declaration? (h : c.declaration? kind path = some id) :
    c.doc.attribute? id kind.addressAttribute = some path := by
  have := List.find?_some h
  simp only [Bool.and_eq_true, decide_eq_true_eq] at this
  exact this.2

/-- A declaration with all that belongs to it can be read. -/
theorem exists_result_extract {r : Route} (h : Declares c.doc r kind)
    (hid : c.declaration? kind r.path = some id) :
    ∃ found, (c.extract kind id r.path).result = .ok found ∧ found.kind = some kind := by
  cases h with
  | serviceClient first type request response =>
    obtain rfl := Option.some.inj (first.symm.trans hid)
    obtain ⟨type, htype⟩ := Option.isSome_iff_exists.1 type
    obtain ⟨request, hrequest⟩ := paired_eq_ok request
    obtain ⟨response, hresponse⟩ := paired_eq_ok response
    refine ⟨{ Classification.ofType .serviceClient type with
      requestFields := c.fieldNames request
      responseFields := c.assignedFields response }, ?_, rfl⟩
    rw [extract, Attempt.result_ofExcept, service, bind_eq_of_ok (requiredAttribute_eq_ok htype),
      bind_eq_of_ok hrequest, bind_eq_of_ok hresponse]
    rfl
  | topicSubscriber declaration callback =>
    obtain ⟨callback, hcallback⟩ := paired_eq_ok callback
    have htopic : c.requiredAttribute .topicSubscriber id "topic" = .ok r.path :=
      requiredAttribute_eq_ok (attribute?_of_declaration? hid)
    refine ⟨{ Classification.ofType .topicSubscriber
        (c.optionalAttribute .topicSubscriber id "type").value with
      topicFields := c.fieldNames callback
      topicName := some r.path }, ?_, rfl⟩
    rw [extract, Attempt.result_bind, Attempt.result_lift, Except.ok_bind, Attempt.result_bind,
      Attempt.result_ofExcept, htopic, Except.ok_bind, Attempt.result_bind,
      Attempt.result_ofExcept, hcallback, Except.ok_bind]
    rfl
  | actionClient two declaration => exact ⟨_, rfl, rfl⟩

/-! ## What a classification comes from -/

section

variable {form : Address} {found found' : Classification}

/-- What is extracted is of the kind of its declaration and has no types. -/
theorem of_extract (h : (c.extract kind id path).result = .ok found) :
    found.kind = some kind ∧ found.fieldTypes = [] := by
  have hservice : ∀ {request response : String},
      c.service kind id request response path = .ok found →
        found.kind = some kind ∧ found.fieldTypes = [] := by
    intro request response h
    obtain ⟨type, -, h⟩ := exists_of_bind_eq_ok h
    obtain ⟨request, -, h⟩ := exists_of_bind_eq_ok h
    obtain ⟨response, -, h⟩ := exists_of_bind_eq_ok h
    cases h
    exact ⟨rfl, rfl⟩
  cases kind with
  | serviceServer => exact hservice h
  | serviceClient => exact hservice h
  | topicPublisher =>
    obtain ⟨type, -, h⟩ := Attempt.exists_of_result_bind h
    obtain ⟨name, -, h⟩ := Attempt.exists_of_result_bind h
    obtain ⟨publish, -, h⟩ := Attempt.exists_of_result_bind h
    cases h
    exact ⟨rfl, rfl⟩
  | topicSubscriber =>
    obtain ⟨type, -, h⟩ := Attempt.exists_of_result_bind h
    obtain ⟨topic, -, h⟩ := Attempt.exists_of_result_bind h
    obtain ⟨callback, -, h⟩ := Attempt.exists_of_result_bind h
    cases h
    exact ⟨rfl, rfl⟩
  | actionServer =>
    cases h
    exact ⟨rfl, rfl⟩
  | actionClient =>
    cases h
    exact ⟨rfl, rfl⟩

/-- The definition of a message type, if there is one. -/
def definition? (c : Classifier) (type : MessageType) : Option Definition :=
  c.library.bind fun library => (library.definition c.files type).result.toOption.join

theorem eq_of_resolveTypes (h : (c.resolveTypes found).result = .ok found') :
    found' = (((c.definition? found.messageType).map found.withDefinition).getD
      found).withDefaults := by
  unfold resolveTypes at h
  unfold definition?
  dsimp only at h
  split at h
  · rename_i library hlibrary
    obtain ⟨definition, hdefinition, h⟩ := Attempt.exists_of_result_bind h
    cases h
    rw [hlibrary, Option.bind_some, hdefinition]
    rfl
  · rename_i hlibrary
    cases h
    rw [hlibrary]
    rfl

/-- What a classification with a kind has gone through. -/
theorem exists_of_classify (h : (c.classify a).value = (.ok found, form))
    (hkind : found.isClassified) :
    ∃ kind id extracted resolved, c.match? a = some (kind, id) ∧ form = kind.addressForm a ∧
      (c.extract kind id form.path).result = .ok extracted ∧
      (c.resolveTypes extracted).result = .ok resolved ∧ found = c.withModels form resolved := by
  rcases hmatch : c.match? a with _ | ⟨kind, id⟩
  · unfold classify at h
    rw [hmatch] at h
    cases h
    cases hkind
  · rw [value_classify hmatch, Prod.mk.injEq] at h
    obtain ⟨hresult, rfl⟩ := h
    unfold classifyBy at hresult
    obtain ⟨extracted, hextracted, hresult⟩ := Attempt.exists_of_result_bind hresult
    obtain ⟨resolved, hresolved, hresult⟩ := Attempt.exists_of_result_bind hresult
    cases hresult
    exact ⟨kind, id, extracted, resolved, rfl, rfl, hextracted, hresolved, rfl⟩

/-- The address takes the form of the kind that was found. -/
theorem addressForm_of_classify (h : (c.classify a).value = (.ok found, form))
    (hkind : found.kind = some kind) : form = kind.addressForm a := by
  obtain ⟨kind', id, extracted, resolved, -, rfl, hextracted, hresolved, rfl⟩ :=
    exists_of_classify h (by rw [Classification.isClassified, hkind]; rfl)
  have hsame : resolved.kind = extracted.kind := by
    rw [eq_of_resolveTypes hresolved]
    cases c.definition? extracted.messageType <;> rfl
  rw [kind_withModels, hsame, (of_extract hextracted).1, Option.some.injEq] at hkind
  rw [hkind]

end

/-! ## Translated events -/

theorem path_addressForm {r : Route} (h : Declares c.doc r kind) (suffix : Suffix) :
    (kind.addressForm (r.address suffix)).path = r.path := by
  cases h with
  | serviceClient first type request response => exact r.hierarchicalPath_address suffix
  | topicSubscriber declaration callback => exact r.hierarchicalPath_address suffix
  | actionClient two declaration => exact (r.path_address_iff suffix).2 two

theorem isSome_declaration?_of_declares {r : Route} (h : Declares c.doc r kind) :
    (c.declaration? kind r.path).isSome := by
  cases h with
  | serviceClient first type request response => exact Option.isSome_of_eq_some first
  | topicSubscriber declaration callback => exact isSome_declaration?.2 declaration
  | actionClient two declaration => exact isSome_declaration?.2 declaration

/-- The event that an element becomes has the address of the element, and is classified by the
declaration at that address. -/
theorem classify_translated {rule : Rule} (hrule : rule ∈ Rule.all) {suffix : Suffix}
    (hsuffix : rule.suffix = some suffix) (aliases : Assoc String) (name : String) (r : Route)
    (hname : rule.resolve aliases name = r.path) :
    ∃ a, Address.parse? (rule.event aliases name) = some a ∧ a.suffix = some suffix ∧
      a.hierarchicalPath = r.path ∧ (a.path = r.path ↔ r.segments.length = 2) ∧
      ∀ (c : Classifier) (kind : Interaction), c.library = none → Declares c.doc r kind →
        (∀ earlier ∈ Interaction.all.takeWhile (· ≠ kind),
          ¬ c.doc.HasElement earlier.tag earlier.addressAttribute (earlier.addressForm a).path) →
        ∃ found, (c.classify a).value = (.ok found, kind.addressForm a) ∧
          found.kind = some kind := by
  refine ⟨r.address suffix, ?_, rfl, r.hierarchicalPath_address suffix, r.path_address_iff suffix,
    fun c kind hlibrary hdeclares hearlier => ?_⟩
  · rw [Rule.event_eq hrule hsuffix, hname, r.parse?_dotted_path]
  · have hpath := path_addressForm hdeclares suffix
    obtain ⟨id, hid⟩ := Option.isSome_iff_exists.1 (isSome_declaration?_of_declares hdeclares)
    obtain ⟨found, hfound, hkind⟩ := exists_result_extract hdeclares hid
    rw [← hpath] at hid hfound
    refine ⟨c.withModels (kind.addressForm (r.address suffix)) found.withDefaults, ?_, ?_⟩
    · rw [value_classify (match?_eq_some hid hearlier), result_classifyBy hlibrary hfound]
    · rw [kind_withModels]
      exact hkind

/-- A route with a segment that is a word for a suffix. -/
def nestedRoute : Route where
  component := ["Arm", "Call"]
  function := "f"
  ne_nil := by simp
  isSegment := by
    intro s hs
    have hmem : s = "Arm" ∨ s = "Call" ∨ s = "f" := by simpa using hs
    rcases hmem with rfl | rfl | rfl <;> exact ⟨by decide, by decide, by decide⟩

/-- A skill that calls a service at the route and subscribes to a topic there. -/
def nestedSkill : Document :=
  .ofForest none (.node (.element "s" [])
    (.leaf (.element "ros_topic_subscriber" [⟨"topic", "/Arm/Call/f"⟩]) ++
      .leaf (.element "ros_service_client" [⟨"service_name", "/Arm/Call/f"⟩, ⟨"type", "t"⟩]) ++
      .leaf (.element "ros_service_send_request" [⟨"name", "/Arm/Call/f"⟩]) ++
      .leaf (.element "ros_service_handle_response" [⟨"name", "/Arm/Call/f"⟩])) .nil)

def callRule : Rule :=
  { source := "ros_service_send_request", target := "send", suffix := some .call,
    fieldsToParams := true }

theorem classify_translated_nested :
    callRule.event [] "/Arm/Call/f" = "Arm.Call.f.Call" ∧
    ∃ a, Address.parse? "Arm.Call.f.Call" = some a ∧ a.hierarchicalPath = "/Arm/Call/f" ∧
      a.path ≠ "/Arm/Call/f" ∧
      ∃ found, (Classifier.classify { doc := nestedSkill, files := .empty [] } a).value =
        (.ok found, a.hierarchical) ∧ found.kind = some .serviceClient := by
  have hrule : callRule ∈ Rule.all := by decide
  have hpath : nestedRoute.path = "/Arm/Call/f" := by decide +kernel
  have hevent : callRule.event [] "/Arm/Call/f" = "Arm.Call.f.Call" := by decide +kernel
  obtain ⟨a, hparse, -, hhierarchical, hplain, hclassify⟩ :=
    classify_translated hrule rfl [] "/Arm/Call/f" nestedRoute hpath.symm
  rw [hevent] at hparse
  have ha : a = ⟨"Arm.Call", "f", some .call⟩ :=
    Option.some.inj (hparse.symm.trans (by decide +kernel))
  have hlength : nestedRoute.segments.length = 3 := rfl
  have hfirst : nestedSkill.findAttribute? nestedSkill.root "ros_service_client" "service_name"
      nestedRoute.path = some 2 := by decide +kernel
  have hdeclares : Declares nestedSkill nestedRoute .serviceClient := by
    refine .serviceClient hfirst ?_ ?_ ?_ <;> decide +kernel
  refine ⟨hevent, a, hparse, hpath ▸ hhierarchical, fun h => ?_, ?_⟩
  · rw [hlength, hpath] at hplain
    exact absurd (hplain.1 h) (by decide)
  · refine hclassify { doc := nestedSkill, files := .empty [] } .serviceClient rfl hdeclares ?_
    rw [ha]
    decide +kernel

end Classifier

end SkillCompiler
