import Mathlib.Data.List.Basic
import SkillCompiler.Proofs.Assoc
import SkillCompiler.Proofs.Interface.Classification
import SkillCompiler.Proofs.Interface.Definition

/-!
# Where the type of a field comes from

The definition of the message type comes first: the type in the first declaration of a field is the
type of the field. What the definition does not declare is text if the skill uses it, and only the
type of a field that is neither declared nor used is taken from the interface model
(`fieldType_of_classify`). So the model is not heard about the fields that the skill uses
(`classify_overlooks_model`).
-/

namespace SkillCompiler

/-! ## What each pass does to the types -/

namespace Classification

theorem get?_fieldTypes_withDefaults (found : Classification) (field : String) :
    found.withDefaults.fieldTypes.get? field =
      (found.fieldTypes.get? field).or
        (if field ∈ found.usedFields then some defaultFieldType else none) := by
  have huntyped : field ∈ found.untypedFields ↔
      field ∈ found.usedFields ∧ found.fieldTypes.get? field = none := by
    simp [untypedFields, Assoc.contains_eq_isSome]
  unfold withDefaults
  rw [Assoc.get?_foldl_insert]
  simp only [huntyped]
  rcases found.fieldTypes.get? field with _ | type <;> simp

end Classification

namespace Classifier

variable {c : Classifier} {a form : Address} {found found' : Classification}

/-- The type that the interface model gives a field of a function. -/
def modelType? (c : Classifier) (package function field : String) : Option String :=
  (c.interfaces.bind fun model => model.function? package function).bind fun f =>
    if f.dataField = some field then f.dataType else none

/-- Before the models are asked, what is not declared is text if it is used. -/
theorem get?_fieldTypes_of_resolveTypes (hnone : found.fieldTypes = [])
    (h : (c.resolveTypes found).result = .ok found') (field : String) :
    found'.fieldTypes.get? field =
      ((c.definition? found'.messageType).bind fun d => d.declaredType? field).or
        (if field ∈ found'.usedFields then some Classification.defaultFieldType else none) := by
  obtain rfl := eq_of_resolveTypes h
  rw [Classification.get?_fieldTypes_withDefaults]
  rcases hd : c.definition? found.messageType with _ | d
  · change _ = ((c.definition? found.messageType).bind _).or _
    rw [hd, Option.map_none, Option.getD_none, hnone]
    rfl
  · change _ = ((c.definition? found.messageType).bind _).or _
    rw [hd, Option.bind_some, ← d.get?_fieldTypes]
    rfl

theorem get?_fieldTypes_withModels (found : Classification) (field : String) :
    (c.withModels a found).fieldTypes.get? field =
      (found.fieldTypes.get? field).or
        (c.modelType? (c.withModels a found).interfaceName a.function field) := by
  unfold withModels modelType?
  rcases c.interfaces with _ | model
  · simp
  · dsimp only
    rw [Option.bind_some]
    split
    · rename_i interfaceType name type hfunction
      rw [hfunction, Assoc.get?_insertNew]
      simp
    · rename_i hother
      rcases hfunction : model.function? ((c.package? a).getD found.interfaceName) a.function
        with _ | ⟨interfaceType, _ | name, _ | type⟩
      · simp
      · simp
      · simp
      · simp
      · exact absurd hfunction (hother interfaceType name type)

theorem usedFields_withModels (found : Classification) :
    (c.withModels a found).usedFields = found.usedFields := by
  unfold withModels
  dsimp only
  split
  · rfl
  · split <;> rfl

theorem messageType_withModels (found : Classification) :
    (c.withModels a found).messageType = found.messageType := by
  unfold withModels
  dsimp only
  split
  · rfl
  · split <;> rfl

/-- The type of a field of a classified event: that of its first declaration, or the default if it is
used, or what the model says, or the default. -/
theorem fieldType_of_classify (h : (c.classify a).value = (.ok found, form))
    (hkind : found.isClassified) (field : String) :
    found.fieldType field =
      ((c.definition? found.messageType).bind fun d => d.declaredType? field).getD
        (if field ∈ found.usedFields then "string"
        else (c.modelType? found.interfaceName form.function field).getD "string") := by
  obtain ⟨kind, id, extracted, resolved, -, -, hextracted, hresolved, rfl⟩ :=
    exists_of_classify h hkind
  rw [Classification.fieldType, get?_fieldTypes_withModels, usedFields_withModels,
    messageType_withModels, get?_fieldTypes_of_resolveTypes (of_extract hextracted).2 hresolved]
  rcases (c.definition? resolved.messageType).bind fun d => d.declaredType? field with _ | type
  · by_cases hused : field ∈ resolved.usedFields <;> simp [hused, Classification.defaultFieldType]
  · rfl

/-- A skill that waits for a message and uses two of its fields. -/
def listeningSkill : Document :=
  .ofForest none (.node (.element "s" [])
    (.leaf (.element "ros_topic_subscriber" [⟨"topic", "/A/f"⟩, ⟨"type", "p/T"⟩]) ++
      .node (.element "ros_topic_callback" [⟨"name", "/A/f"⟩])
        (.leaf (.element "field" [⟨"name", "x"⟩]) ++ .leaf (.element "field" [⟨"name", "y"⟩]))
        .nil) .nil)

/-- The definition declares one of the fields, and the model gives a type to some field. -/
def listening (modelled : String) : Classifier where
  doc := listeningSkill
  files := ⟨[(["d"], .file "int8 y".toUTF8)], []⟩
  library := some [("p/T", "/d")]
  interfaces := some [("p", ⟨false, [("f", ⟨none, some modelled, some "int64"⟩)]⟩)]

def listened (fieldTypes : Assoc String) : Classification where
  kind := some .topicSubscriber
  messageType := "p/T"
  interfaceName := "p"
  typeName := "T"
  topicName := some "/A/f"
  topicFields := ["x", "y"]
  fieldTypes := fieldTypes

theorem fieldType_of_classify_listening :
    ((listening "z").classify ⟨"A", "f", some .sub⟩).value =
      (.ok (listened [("y", "int8"), ("x", "string"), ("z", "int64")]), ⟨"A", "f", some .sub⟩) ∧
    (listened [("y", "int8"), ("x", "string"), ("z", "int64")]).fieldType "y" = "int8" ∧
    (listened [("y", "int8"), ("x", "string"), ("z", "int64")]).fieldType "z" = "int64" := by
  have hclassify : ((listening "z").classify ⟨"A", "f", some .sub⟩).value =
      (.ok (listened [("y", "int8"), ("x", "string"), ("z", "int64")]), ⟨"A", "f", some .sub⟩) := by
    decide +kernel
  have hdefinition : (listening "z").definition? "p/T" = some ⟨[[⟨"int8", "y"⟩]]⟩ := by
    decide +kernel
  have hfield := fun field => fieldType_of_classify hclassify rfl field
  refine ⟨hclassify, (hfield "y").trans ?_, (hfield "z").trans ?_⟩
  · change (((listening "z").definition? "p/T").bind _).getD _ = _
    rw [hdefinition]
    rfl
  · change (((listening "z").definition? "p/T").bind _).getD _ = _
    rw [hdefinition]
    decide +kernel

/-- The model gives a type to a field that no definition declares, and the skill uses the field: the
field is text all the same. -/
theorem classify_overlooks_model :
    ∃ found form, ((listening "x").classify ⟨"A", "f", some .sub⟩).value = (.ok found, form) ∧
      found.isClassified ∧
      ((listening "x").definition? found.messageType).bind (·.declaredType? "x") = none ∧
      (listening "x").modelType? found.interfaceName form.function "x" = some "int64" ∧
      found.fieldType "x" = "string" :=
  ⟨listened [("y", "int8"), ("x", "string")], ⟨"A", "f", some .sub⟩, by decide +kernel⟩

end Classifier

end SkillCompiler
