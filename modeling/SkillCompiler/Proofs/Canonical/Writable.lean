import SkillCompiler.Proofs.Canonical.Refinement
import SkillCompiler.Proofs.Document.Contents

/-!
# Canonical statecharts can be written

A canonical statechart has the declaration of the skill it was made from, and its tree can be written
if that of the skill can (`writable_of_canonicalize`): the rewriting puts in names that can be
written, keeps the names of attributes distinct, and leaves texts, sections and comments alone.
-/

namespace SkillCompiler

open Document Markup Attempt

/-! ## The declaration -/

namespace Canonical

theorem eq_ok_of_result_document {α : Type} {x : Except DocumentError α} {a : α}
    (h : (Compile.document x).result = .ok a) : x = .ok a := by
  rw [Compile.document, Attempt.result_ofExcept] at h
  exact eq_ok_of_mapError_eq_ok h

theorem exists_of_expect {α : Type} {edited : Except DocumentError α × Document} {doc : Document}
    (h : expect edited = .ok doc) : ∃ a, edited = (.ok a, doc) := by
  rcases edited with ⟨e | a, doc'⟩
  · cases h
  · cases h
    exact ⟨a, rfl⟩

theorem exists_of_result_edit {α : Type} {edited : Except DocumentError α × Document}
    {doc : Document} (h : (Compile.edit edited).result = .ok doc) : ∃ a, edited = (.ok a, doc) :=
  exists_of_expect (eq_ok_of_result_document h)

/-- What holds of the document that an edit leaves holds of the one that is gone on with. -/
theorem declaration_of_expect {α : Type} {edited : Except DocumentError α × Document}
    {doc doc' : Document} (hedit : edited.2.declaration = doc.declaration)
    (h : expect edited = .ok doc') : doc'.declaration = doc.declaration := by
  obtain ⟨a, rfl⟩ := exists_of_expect h
  exact hedit

theorem declaration_of_edit {α : Type} {edited : Except DocumentError α × Document}
    {doc doc' : Document} (hedit : edited.2.declaration = doc.declaration)
    (h : (Compile.edit edited).result = .ok doc') : doc'.declaration = doc.declaration :=
  declaration_of_expect hedit (eq_ok_of_result_document h)

variable {doc doc' : Document} {id : NodeId}

theorem declaration_renameEvent {rule : Rule} {aliases : Assoc String}
    (h : (renameEvent rule aliases doc id).result = .ok doc') :
    doc'.declaration = doc.declaration := by
  unfold renameEvent at h
  split at h
  · obtain ⟨-, -, h⟩ := exists_of_result_bind h
    exact declaration_of_edit (declaration_setAttribute doc id ..) h
  · obtain ⟨-, -, h⟩ := exists_of_result_bind h
    cases h
    rfl

theorem declaration_splitHandler {target : String} {split : Split}
    (h : (splitHandler target split doc id).result = .ok doc') :
    doc'.declaration = doc.declaration := by
  unfold splitHandler at h
  dsimp only at h
  split at h
  · obtain ⟨doc₁, h₁, h⟩ := exists_of_result_bind h
    obtain ⟨doc₂, h₂, h⟩ := exists_of_result_bind h
    obtain ⟨doc₃, h₃, h⟩ := exists_of_result_bind h
    obtain ⟨-, -, h⟩ := exists_of_result_bind h
    cases h
    rw [declaration_of_edit (declaration_detach ..) h₃,
      declaration_of_edit (declaration_insertAfter ..) h₂,
      declaration_of_edit (declaration_insertAfter ..) h₁]
    rfl
  · obtain ⟨-, -, h⟩ := exists_of_result_bind h
    exact declaration_of_edit (declaration_setTag ..) h

theorem declaration_applyAt {rule : Rule} {aliases : Assoc String}
    (h : (applyAt rule aliases doc id).result = .ok doc') :
    doc'.declaration = doc.declaration := by
  unfold applyAt at h
  obtain ⟨doc₁, h₁, h⟩ := exists_of_result_bind h
  obtain ⟨doc₂, h₂, h⟩ := exists_of_result_bind h
  obtain ⟨doc₃, h₃, h⟩ := exists_of_result_bind h
  have hrename : ∀ (renames : List (String × String)) (doc : Document),
      (renames.foldl (fun doc r => (doc.renameAttribute id r.1 r.2).2) doc).declaration =
        doc.declaration := by
    intro renames
    induction renames with
    | nil => exact fun doc => rfl
    | cons r renames ih =>
      intro doc
      rw [List.foldl_cons, ih]
      exact declaration_renameAttribute doc id r.1 r.2
  have hfields : doc₂.declaration = doc₁.declaration := by
    have h₂ := eq_ok_of_result_document h₂
    split at h₂
    · refine foldlM_invariant (fun d : Document => d.declaration = doc₁.declaration)
        (fun field _ d d' hs hd => ?_) rfl h₂
      rw [← hd]
      exact declaration_of_expect (declaration_setTag ..) hs
    · cases h₂
      rfl
  have hcond : doc₃.declaration = doc₂.declaration := by
    have h₃ := eq_ok_of_result_document h₃
    split at h₃
    · exact declaration_of_expect (declaration_setAttribute ..) h₃
    · cases h₃
      rfl
  have hlast : doc'.declaration = doc₃.declaration := by
    split at h
    · exact declaration_splitHandler h
    · exact declaration_of_edit (declaration_setTag ..) h
  rw [hlast, hcond, hfields, declaration_renameEvent h₁, hrename]

theorem declaration_dropDataTypes (doc : Document) :
    (dropDataTypes doc).declaration = doc.declaration := by
  unfold dropDataTypes
  generalize doc.withTag doc.root "data" = ids
  induction ids generalizing doc with
  | nil => rfl
  | cons id ids ih =>
    rw [List.foldl_cons, ih]
    exact declaration_removeAttribute doc id "type"

theorem declaration_apply {rule : Rule} {aliases : Assoc String}
    (h : (apply rule aliases doc).result = .ok doc') : doc'.declaration = doc.declaration := by
  rw [apply_result] at h
  refine foldlM_invariant (fun d : Document => d.declaration = doc.declaration)
    (fun id _ d d' hs hd => ?_) rfl h
  rw [← hd]
  exact declaration_applyAt hs

theorem declaration_updateAssigns (h : updateAssigns doc = .ok doc') :
    doc'.declaration = doc.declaration := by
  unfold updateAssigns at h
  refine foldlM_invariant (fun d : Document => d.declaration = doc.declaration)
    (fun id _ d d' hs hd => ?_) rfl h
  rw [← hd]
  split at hs
  · split at hs
    · cases hs
      rfl
    · exact declaration_of_expect (declaration_setAttribute ..) hs
  · cases hs
    rfl

theorem declaration_detachAll {tags : List String} (h : tags.foldlM detachAll doc = .ok doc') :
    doc'.declaration = doc.declaration := by
  refine foldlM_invariant (fun d : Document => d.declaration = doc.declaration)
    (fun tag _ d d' hs hd => ?_) rfl h
  refine foldlM_invariant (fun d : Document => d.declaration = doc.declaration)
    (fun id _ d d' hs hd => ?_) hd hs
  rw [← hd]
  exact declaration_of_expect (declaration_detach ..) hs

/-! ## All passes -/

/-- The documents between the passes of a canonicalization that succeeds. -/
theorem exists_of_canonicalize {source : Document} {c : Canonical}
    (h : (canonicalize source).result = .ok c) :
    ∃ doc₁ doc₂ doc₃ doc₄,
      source.setAttribute source.root "name" c.names.machine = (.ok (), doc₁) ∧
      declarationTags.foldlM detachAll doc₁ = .ok doc₂ ∧
      doc₂.setAttribute source.root "xmlns" namespaceName = (.ok (), doc₃) ∧
      (Rule.all.foldlM (fun doc rule => apply rule (aliases doc₁) doc)
        (dropDataTypes doc₃)).result = .ok doc₄ ∧
      updateAssigns doc₄ = .ok c.document := by
  unfold canonicalize at h
  obtain ⟨names, -, h⟩ := exists_of_result_bind h
  obtain ⟨-, -, h⟩ := exists_of_result_bind h
  obtain ⟨doc₁, h₁, h⟩ := exists_of_result_bind h
  obtain ⟨-, -, h⟩ := exists_of_result_bind h
  obtain ⟨doc₂, h₂, h⟩ := exists_of_result_bind h
  obtain ⟨doc₃, h₃, h⟩ := exists_of_result_bind h
  obtain ⟨doc₄, h₄, h⟩ := exists_of_result_bind h
  obtain ⟨doc₅, h₅, h⟩ := exists_of_result_bind h
  cases h
  obtain ⟨_, h₁⟩ := exists_of_result_edit h₁
  obtain ⟨_, h₃⟩ := exists_of_result_edit h₃
  exact ⟨doc₁, doc₂, doc₃, doc₄, h₁, eq_ok_of_result_document h₂, h₃, h₄,
    eq_ok_of_result_document h₅⟩

theorem declaration_of_canonicalize {source : Document} {c : Canonical}
    (h : (canonicalize source).result = .ok c) :
    c.document.declaration = source.declaration := by
  obtain ⟨doc₁, doc₂, doc₃, doc₄, h₁, h₂, h₃, h₄, h₅⟩ := exists_of_canonicalize h
  rw [Attempt.result_foldlM] at h₄
  have hrules : doc₄.declaration = doc₃.declaration := by
    rw [← declaration_dropDataTypes doc₃]
    refine foldlM_invariant (fun d : Document => d.declaration = (dropDataTypes doc₃).declaration)
      (fun rule _ d d' hs hd => ?_) rfl h₄
    rw [← hd]
    exact declaration_apply hs
  have hxmlns : doc₃.declaration = doc₂.declaration :=
    declaration_of_expect (declaration_setAttribute ..) (expect_eq_ok h₃)
  have hname : doc₁.declaration = source.declaration :=
    declaration_of_expect (declaration_setAttribute ..) (expect_eq_ok h₁)
  rw [declaration_updateAssigns h₅, hrules, hxmlns, declaration_detachAll h₂, hname]

/-- What the passes leave, whatever attributes the elements have. -/
theorem holds_passes_of_canonicalize {source : Document} {c : Canonical} {tag : String}
    {as : List Attribute} {below : Forest Content} (hs : source.Holds (.element tag as) below)
    (h : (canonicalize source).result = .ok c) :
    c.document.Holds (.element tag (SkillCompiler.setAttribute "xmlns" namespaceName
      (SkillCompiler.setAttribute "name" c.names.machine as)))
      (passes (aliases source) below) := by
  obtain ⟨doc₁, doc₂, doc₃, doc₄, h₁, h₂, h₃, h₄, h₅⟩ := exists_of_canonicalize h
  obtain ⟨_, he₁, hr₁, hold₁, hrel⟩ := setAttribute_holds hs "name" c.names.machine
  cases h₁.symm.trans he₁
  obtain ⟨_, he₂, hr₂, hold₂⟩ := detachAll_holds hold₁
  cases h₂.symm.trans he₂
  obtain ⟨_, he₃, -, hold₃, -⟩ := setAttribute_holds hold₂ "xmlns" namespaceName
  rw [hr₂, hr₁] at he₃
  cases h₃.symm.trans he₃
  obtain ⟨_, he₄, -, hold₄⟩ := rules_holds (aliases doc₁) (dropDataTypes_holds hold₃).2
  cases h₄.symm.trans he₄
  obtain ⟨_, he₅, -, hold₅⟩ := updateAssigns_holds hold₄
  cases h₅.symm.trans he₅
  rwa [aliases_eq hs hrel, ← passes] at hold₅

theorem holds_of_canonicalize {source : Document} {c : Canonical} {tag : String}
    {as : List Attribute} {below : Forest Content} (hs : source.Holds (.element tag as) below)
    (hb : Regular below) (h : (canonicalize source).result = .ok c) :
    c.document.Holds (.element tag (SkillCompiler.setAttribute "xmlns" namespaceName
      (SkillCompiler.setAttribute "name" c.names.machine as)))
      (rewriteBelow (aliases source) false below) := by
  rw [← passes_eq_rewriteBelow _ hb]
  exact holds_passes_of_canonicalize hs h

/-! ## Names and attributes -/

theorem isName_target : ∀ rule ∈ Rule.all, IsName rule.target := by
  decide

theorem distinct_converted {rule : Rule} (hr : rule.renames = [("name", "event")])
    (aliases : Assoc String) {as : List Attribute} (h : Distinct as) :
    Distinct (rule.converted aliases as) := by
  have he : Distinct (updated "event" (rule.event aliases) (renamed "name" "event" as)) :=
    (h.renamed "name" "event").updated
  simp only [Rule.converted, hr, List.foldl_cons, List.foldl_nil]
  split
  · exact he.updated
  · exact he

theorem isName_of_mem_attributes {rule : Rule} {aliases : Assoc String} {as : List Attribute}
    (h : ∀ a ∈ as, IsName a.name) : ∀ a ∈ rule.attributes aliases as, IsName a.name := by
  intro b hb
  obtain ⟨a, ha, hab⟩ := List.mem_filterMap.1 hb
  have hevent : IsName "event" := by decide
  have hcond : IsName "cond" := by decide
  split at hab
  · cases hab
    exact hevent
  split at hab
  · split at hab
    · cases hab
    · cases hab
      exact hevent
  split at hab
  · cases hab
    exact hcond
  · cases hab
    exact h b ha

theorem writableTag_attributes {rule : Rule} (hm : rule ∈ Rule.all) (aliases : Assoc String)
    {tag : String} {as : List Attribute} (h : WritableTag tag as) :
    WritableTag rule.target (rule.attributes aliases as) := by
  have hr := renames_of_mem_all rule hm
  refine ⟨isName_target rule hm, isName_of_mem_attributes h.2.1, ?_⟩
  rw [← Rule.converted_eq_attributes hr aliases h.2.2]
  exact distinct_converted hr aliases h.2.2

theorem writableTag_plainAttributes {tag tag' : String} {as : List Attribute}
    (h : WritableTag tag as) (htag : IsName tag') : WritableTag tag' (plainAttributes tag as) := by
  refine ⟨htag, ?_⟩
  unfold plainAttributes
  split
  · exact ⟨fun a ha => h.2.1 a (List.mem_filter.1 ha).1, h.2.2.sublist List.filter_sublist⟩
  split
  · have hname : ∀ a : Attribute,
        (if a.name = "expr" then ⟨"expr", withEventData a.value⟩ else a : Attribute).name =
          a.name := by
      intro a
      split
      · rename_i ha
        exact ha.symm
      · rfl
    refine ⟨fun b hb => ?_, h.2.2.map fun a _ => hname a⟩
    obtain ⟨a, ha, rfl⟩ := List.mem_map.1 hb
    rw [hname]
    exact h.2.1 a ha
  · exact h.2

theorem writableTag_setAttribute {tag name : String} {as : List Attribute} (h : WritableTag tag as)
    (hname : IsName name) (value : String) :
    WritableTag tag (SkillCompiler.setAttribute name value as) := by
  refine ⟨h.1, fun b hb => ?_, h.2.2.setAttribute name value⟩
  have hb := List.mem_map_of_mem (f := Attribute.name) hb
  rw [Distinct.names_setAttribute] at hb
  have hold : b.name ∈ as.map Attribute.name → IsName b.name := by
    intro hm
    obtain ⟨a, ha, he⟩ := List.mem_map.1 hm
    exact he ▸ h.2.1 a ha
  split at hb
  · exact hold hb
  · rw [List.mem_append, List.mem_singleton] at hb
    rcases hb with hb | hb
    · exact hold hb
    · exact hb ▸ hname

/-! ## The rewriting -/

theorem writable_place {rule : Rule} {as : List Attribute} {below : Forest Content}
    (has : WritableTag rule.target as) (hb : ∀ c ∈ below.preorder, Writable c) :
    ∀ c ∈ (rule.place as below).preorder, Writable c := by
  have hnode : ∀ c ∈ (Forest.node (.element rule.target as) below .nil).preorder, Writable c := by
    intro c hc
    simp only [Forest.preorder_node, Forest.preorder_nil, List.append_nil, List.mem_cons] at hc
    rcases hc with rfl | hc
    · exact has
    · exact hb c hc
  have hsplit : ∀ event cond target : String, Writable (.element rule.target
      [⟨"event", event⟩, ⟨"cond", cond⟩, ⟨"target", target⟩]) := by
    intro event cond target
    refine ⟨has.1, ?_, ?_⟩
    · have hnames : IsName "event" ∧ IsName "cond" ∧ IsName "target" := by decide
      simpa using hnames
    · simp [Distinct]
  unfold Rule.place
  split
  · split
    · intro c hc
      simp only [Forest.leaf, Forest.preorder_append, Forest.preorder_node, Forest.preorder_nil,
        List.append_nil, List.singleton_append, List.mem_cons, List.not_mem_nil, or_false] at hc
      rcases hc with rfl | rfl <;> exact hsplit ..
    · exact hnode
  · exact hnode

theorem writable_rewriteBelow (aliases : Assoc String) :
    ∀ (inside : Bool) {t : Forest Content}, (∀ c ∈ t.preorder, Writable c) →
      ∀ c ∈ (rewriteBelow aliases inside t).preorder, Writable c
  | _, .nil, _ => by simp [rewriteBelow]
  | inside, .node content below after, h => by
    simp only [Forest.preorder_node, List.mem_cons, List.mem_append] at h
    have ihb := fun inside => writable_rewriteBelow aliases inside (t := below)
      fun c hc => h c (.inr (.inl hc))
    have iha := writable_rewriteBelow aliases inside (t := after) fun c hc => h c (.inr (.inr hc))
    have hcontent : Writable content := h content (.inl rfl)
    have hnode : ∀ c, Writable c → ∀ x ∈ (Forest.node c (rewriteBelow aliases inside below)
        (rewriteBelow aliases inside after)).preorder, Writable x := by
      intro c hc x hx
      simp only [Forest.preorder_node, List.mem_cons, List.mem_append] at hx
      rcases hx with rfl | hx | hx
      · exact hc
      · exact ihb inside x hx
      · exact iha x hx
    cases htag : content.tag? with
    | none =>
      rw [rewriteBelow_of_tag?_eq_none aliases inside htag]
      exact hnode content hcontent
    | some tag =>
      cases content with
      | element tag' as =>
        rw [rewriteBelow]
        split
        · exact iha
        split
        · rename_i rule hrule
          have hm := List.mem_of_find?_eq_some hrule
          intro x hx
          rw [Forest.preorder_append, List.mem_append] at hx
          rcases hx with hx | hx
          · exact writable_place (writableTag_attributes hm aliases hcontent) (ihb _) x hx
          · exact iha x hx
        · refine hnode _ (writableTag_plainAttributes hcontent ?_)
          split
          · exact (by decide : IsName "param")
          · exact hcontent.1
      | text v => cases htag
      | cdata v => cases htag
      | comment v => cases htag

/-- What a canonical statechart holds can be written if what the skill holds can. -/
theorem writable_of_canonicalize {source : Document} {c : Canonical} {tag : String}
    {as : List Attribute} {below : Forest Content} (hs : source.Holds (.element tag as) below)
    (hb : Regular below) (hw : ∀ x ∈ source.forest.preorder, Writable x)
    (h : (canonicalize source).result = .ok c) :
    ∀ x ∈ c.document.forest.preorder, Writable x := by
  rw [hs.forest_eq] at hw
  rw [(holds_of_canonicalize hs hb h).forest_eq]
  simp only [Forest.preorder_node, Forest.preorder_nil, List.append_nil, List.forall_mem_cons]
    at hw ⊢
  refine ⟨?_, writable_rewriteBelow _ false hw.2⟩
  exact writableTag_setAttribute (writableTag_setAttribute hw.1 (by decide) _) (by decide) _

end Canonical

end SkillCompiler
