import SkillCompiler.Proofs.Synthesis.Reply

/-!
# The endpoint in generated code

An address is looked for among the declarations of one kind after another, in two spellings. The
first kind that declares it is its kind, and the address is left in the spelling of that kind even
if the rest of the classification fails. So the path of the address is the declared one, and
generated code that is given the path names the endpoint that the skill declares
(`classify_as_declared`).
-/

namespace SkillCompiler

/-- The path at which a kind declares an address. Dots stand for slashes in the declarations of
service clients and topic subscribers, and for themselves in all others. -/
def Interaction.pathOf (kind : Interaction) (a : Address) : String :=
  if kind = .serviceClient ∨ kind = .topicSubscriber then
    "/" ++ Text.replaceChar '.' '/' a.component ++ "/" ++ Text.replaceChar '.' '/' a.function
  else "/" ++ a.component ++ "/" ++ a.function

theorem Interaction.path_addressForm (kind : Interaction) (a : Address) :
    (kind.addressForm a).path = kind.pathOf a := by
  cases kind <;> rfl

namespace Classifier

variable {c : Classifier} {a : Address} {kind : Interaction} {id : NodeId}

/-- Some element below the root declares an address as one of a kind. -/
def IsDeclared (c : Classifier) (a : Address) (kind : Interaction) : Prop :=
  c.doc.HasElement kind.tag kind.addressAttribute (kind.pathOf a)

instance (c : Classifier) (a : Address) (kind : Interaction) : Decidable (c.IsDeclared a kind) :=
  inferInstanceAs (Decidable (c.doc.HasElement ..))

/-! ## The kind -/

theorem match?_eq (c : Classifier) (a : Address) :
    c.match? a = (Interaction.all.find? (c.IsDeclared a ·)).bind fun kind =>
      (c.declaration? kind (kind.pathOf a)).map (kind, ·) := by
  unfold match?
  induction Interaction.all with
  | nil => rfl
  | cons kind kinds ih =>
    rw [List.findSome?_cons, List.find?_cons, kind.path_addressForm]
    by_cases hdeclared : c.IsDeclared a kind
    · obtain ⟨id, hid⟩ := Option.isSome_iff_exists.1 (isSome_declaration?.2 hdeclared)
      simp [hdeclared, hid]
    · have hnone : c.declaration? kind (kind.pathOf a) = none := by
        rw [← Option.not_isSome_iff_eq_none, isSome_declaration?]
        exact hdeclared
      simp [hdeclared, hnone, ih]

theorem match?_eq_none (h : ∀ kind ∈ Interaction.all, ¬ c.IsDeclared a kind) :
    c.match? a = none := by
  rw [match?_eq, List.find?_eq_none.2 (by simpa using h)]
  rfl

theorem exists_match? (h : Interaction.all.find? (c.IsDeclared a ·) = some kind) :
    ∃ id, c.declaration? kind (kind.pathOf a) = some id ∧ c.match? a = some (kind, id) := by
  have hdeclared : c.IsDeclared a kind := by simpa using List.find?_some h
  obtain ⟨id, hid⟩ := Option.isSome_iff_exists.1 (isSome_declaration?.2 hdeclared)
  refine ⟨id, hid, ?_⟩
  rw [match?_eq, h, Option.bind_some, hid]
  rfl

theorem kind_of_classifyBy {found : Classification}
    (h : (c.classifyBy kind id a).result = .ok found) :
    found.kind = some kind := by
  unfold classifyBy at h
  obtain ⟨extracted, hextracted, h⟩ := Attempt.exists_of_result_bind h
  obtain ⟨resolved, hresolved, h⟩ := Attempt.exists_of_result_bind h
  cases h
  have hsame : resolved.kind = extracted.kind := by
    rw [eq_of_resolveTypes hresolved]
    cases c.definition? extracted.messageType <;> rfl
  rw [kind_withModels, hsame, (of_extract hextracted).1]

end Classifier

/-! ## The placeholder -/

/-- The placeholder for the endpoint of an event. -/
def Placeholders.serverName : String := "$eventData.serverName$"

theorem Placeholders.get?_serverName {record : Record} {a : Address}
    (ha : record.address = some a) :
    (forEvent record).get? serverName = some ("\"" ++ a.path ++ "\"") := by
  have hget : (forEvent record).get? serverName =
      some ("\"/" ++ a.component ++ "/" ++ a.function ++ "\"") := by
    unfold forEvent
    rw [ofList_eq_self (by simp [messageName]), ha]
    simp [Assoc.get?, serverName, messageName]
  rw [hget, Address.path, ← String.append_assoc, ← String.append_assoc, ← String.append_assoc]
  rfl

/-! ## Declared endpoints -/

namespace Classifier

/-- An address is of the first kind that declares it and of none if no kind does. It is left in the
spelling of that kind, so its path is what the first declaration says, and so is the endpoint that
is put into generated code. -/
theorem classify_as_declared (c : Classifier) (a : Address) :
    ((∃ found, (c.classify a).value.1 = .ok found ∧ found.kind = none) ↔
      ∀ kind ∈ Interaction.all, ¬ c.IsDeclared a kind) ∧
    ((∀ kind ∈ Interaction.all, ¬ c.IsDeclared a kind) → (c.classify a).value = (.ok {}, a)) ∧
    ∀ kind, Interaction.all.find? (c.IsDeclared a ·) = some kind →
      (c.classify a).value.2 =
        (if kind = .serviceClient ∨ kind = .topicSubscriber then
          { a with
            component := Text.replaceChar '.' '/' a.component
            function := Text.replaceChar '.' '/' a.function }
        else a) ∧
      (∀ found, (c.classify a).value.1 = .ok found → found.kind = some kind) ∧
      ∃ id declared,
        (c.doc.descendants c.doc.root).find? (fun id => c.doc.hasTag id kind.tag &&
          c.doc.attribute? id kind.addressAttribute = some (kind.pathOf a)) = some id ∧
        (c.classify a).value.1 = (c.classifyBy kind id (c.classify a).value.2).result ∧
        c.doc.attribute? id kind.addressAttribute = some declared ∧
        (c.classify a).value.2.path = declared ∧
        ∀ (calls : List Registry.Call) (name : String) (record : Record),
          Address.parse? name = some a →
          (Registry.run c.classify calls).value.get? name = some record →
          (Placeholders.forEvent record).get? Placeholders.serverName =
            some ("\"" ++ declared ++ "\"") := by
  have hnone : (∀ kind ∈ Interaction.all, ¬ c.IsDeclared a kind) →
      (c.classify a).value = (.ok {}, a) := by
    intro h
    unfold classify
    rw [match?_eq_none h]
    rfl
  have hsome : ∀ kind, Interaction.all.find? (c.IsDeclared a ·) = some kind →
      ∃ id, c.declaration? kind (kind.pathOf a) = some id ∧ (c.classify a).value =
        ((c.classifyBy kind id (kind.addressForm a)).result, kind.addressForm a) := by
    intro kind h
    obtain ⟨id, hid, hmatch⟩ := exists_match? h
    exact ⟨id, hid, value_classify hmatch⟩
  refine ⟨⟨?_, fun h => ⟨{}, by rw [hnone h], rfl⟩⟩, hnone, fun kind h => ?_⟩
  · rintro ⟨found, hfound, hkind⟩
    rcases hfind : Interaction.all.find? (c.IsDeclared a ·) with _ | kind
    · simpa using hfind
    · obtain ⟨id, -, hvalue⟩ := hsome kind hfind
      rw [hvalue] at hfound
      rw [kind_of_classifyBy hfound] at hkind
      cases hkind
  · obtain ⟨id, hid, hvalue⟩ := hsome kind h
    rw [hvalue]
    refine ⟨by cases kind <;> rfl, fun found => kind_of_classifyBy, id, kind.pathOf a, hid, rfl,
      attribute?_of_declaration? hid, kind.path_addressForm a, ?_⟩
    intro calls name record hparse hrecord
    obtain ⟨form, hclassify, haddress⟩ :=
      Registry.of_get?_run (Registry.asked?_of_parse? hparse) hrecord
    rw [hvalue, Prod.mk.injEq] at hclassify
    rw [Placeholders.get?_serverName haddress, ← hclassify.2, kind.path_addressForm]

/-- A service that is called is declared with slashes; nothing declares a function beside it. -/
theorem classify_as_declared_calling :
    (callingClassifier.classify ⟨"A.B", "f", some .call⟩).value.2 = ⟨"A/B", "f", some .call⟩ ∧
    (Placeholders.forEvent calledRecord).get? Placeholders.serverName = some "\"/A/B/f\"" ∧
    (callingClassifier.classify ⟨"A.B", "g", some .call⟩).value =
      (.ok {}, ⟨"A.B", "g", some .call⟩) := by
  have hparse : Address.parse? "A.B.f.Call" = some ⟨"A.B", "f", some .call⟩ := by decide +kernel
  have hfind : Interaction.all.find?
      (callingClassifier.IsDeclared ⟨"A.B", "f", some .call⟩ ·) = some .serviceClient := by
    decide +kernel
  have hform : (⟨Text.replaceChar '.' '/' "A.B", Text.replaceChar '.' '/' "f", some .call⟩ :
      Address) = ⟨"A/B", "f", some .call⟩ := by decide +kernel
  obtain ⟨-, -, h⟩ := classify_as_declared callingClassifier ⟨"A.B", "f", some .call⟩
  obtain ⟨haddress, -, id, declared, -, -, -, hpath, hplaceholder⟩ := h _ hfind
  rw [if_pos (.inl rfl), hform] at haddress
  rw [haddress] at hpath
  subst hpath
  refine ⟨haddress, hplaceholder _ _ _ hparse get?_callingEvents, ?_⟩
  exact (classify_as_declared callingClassifier ⟨"A.B", "g", some .call⟩).2.1 (by decide +kernel)

end Classifier

end SkillCompiler
