import SkillCompiler.Proofs.Canonical.Rewrite
import SkillCompiler.Proofs.Document.Sweep
import SkillCompiler.Proofs.Log

/-!
# Canonicalization pass by pass

What each pass of canonicalization does to the tree at one element: attributes are changed and the
fields below it take their new tag (`applyAt_relabels`), and then the element takes its new tag or
is replaced by two (`finish_rewrites`). The elements of a pass are collected before the first of
them is changed, so a goal response that is below another one is still expanded, after the outer
one has left the tree.
-/

namespace SkillCompiler

theorem Compile.result_document {α : Type} {x : Except DocumentError α} {a : α} (h : x = .ok a) :
    (Compile.document x).result = .ok a := by
  rw [h]
  rfl

theorem Document.expect_eq_ok {α : Type} {edited : Except DocumentError α × Document} {a : α}
    {doc : Document} (h : edited = (.ok a, doc)) : Document.expect edited = .ok doc := by
  rw [h]
  rfl

theorem Compile.result_edit {α : Type} {edited : Except DocumentError α × Document} {a : α}
    {doc : Document} (h : edited = (.ok a, doc)) : (Compile.edit edited).result = .ok doc :=
  Compile.result_document (Document.expect_eq_ok h)

/-! ## Edits of attributes -/

theorem setAttribute_eq_self {name value : String} :
    ∀ {as : List Attribute}, lookupAttribute name as = some value →
      setAttribute name value as = as
  | [], h => by simp [lookupAttribute] at h
  | a :: as, h => by
    by_cases ha : a.name = name
    · simp only [lookupAttribute, List.find?_cons, ha, decide_true, Option.map_some,
        Option.some.injEq] at h
      rw [setAttribute, if_pos ha, ← ha, ← h]
    · have hl : lookupAttribute name (a :: as) = lookupAttribute name as := by
        simp [lookupAttribute, ha]
      rw [setAttribute, if_neg ha, setAttribute_eq_self (hl ▸ h)]

namespace Content

theorem tag?_mapAttributes (f : List Attribute → List Attribute) (c : Content) :
    (c.mapAttributes f).tag? = c.tag? := by
  cases c <;> rfl

theorem isSome_tag?_retag (tag : String) (c : Content) :
    (c.retag tag).tag?.isSome = c.tag?.isSome := by
  cases c <;> rfl

theorem retag_retag (tag : String) (c : Content) : (c.retag tag).retag tag = c.retag tag := by
  cases c <;> rfl

theorem mapAttributes_mapAttributes (f g : List Attribute → List Attribute) (c : Content) :
    (c.mapAttributes f).mapAttributes g = c.mapAttributes fun as => g (f as) := by
  cases c <;> rfl

end Content

namespace Document

variable {doc doc' : Document} {id : NodeId}

theorem onNode_onNode (f g : Content → Content) (j : NodeId) (c : Content) :
    onNode id g j (onNode id f j c) = onNode id (fun c => g (f c)) j c := by
  by_cases hj : j = id <;> simp [onNode, hj]

theorem attribute?_of_content? {tag : String} {as : List Attribute}
    (h : doc.content? id = some (.element tag as)) (name : String) :
    doc.attribute? id name = lookupAttribute name as := by
  simp [attribute?, attributes, h, Content.attributes]

/-- A change of attributes leaves the tags. -/
theorem Relabels.tag? {f : List Attribute → List Attribute}
    (h : Relabels (onNode id (Content.mapAttributes f)) doc doc') (j : NodeId) :
    doc'.tag? j = doc.tag? j := by
  rw [Document.tag?, h.content?, Document.tag?]
  cases doc.content? j with
  | none => rfl
  | some c =>
    by_cases hj : j = id <;> simp [onNode, hj, Content.tag?_mapAttributes]

/-- Changes the value of an attribute, if the element has it. -/
theorem updateAttribute_relabels {t : String} (ht : doc.tag? id = some t) (name : String)
    (f : String → String) :
    ∃ doc', (match doc.attribute? id name with
      | some value => expect (doc.setAttribute id name (f value))
      | none => .ok doc) = .ok doc' ∧
      Relabels (onNode id (Content.mapAttributes (updated name f))) doc doc' := by
  obtain ⟨as, hc⟩ := exists_attributes_of_tag? ht
  have hcongr : ∀ {g : List Attribute → List Attribute}, g as = updated name f as →
      ∀ j c, doc.content? j = some c →
        onNode id (Content.mapAttributes g) j c =
          onNode id (Content.mapAttributes (updated name f)) j c := by
    intro g hg j c hj
    by_cases hji : j = id
    · rw [hji, hc, Option.some.injEq] at hj
      simp [onNode, hji, ← hj, Content.mapAttributes, hg]
    · simp [onNode, hji]
  rw [attribute?_of_content? hc]
  cases hl : lookupAttribute name as with
  | some value =>
    obtain ⟨doc', he, hr⟩ := setAttribute_relabels ht name (f value)
    exact ⟨doc', expect_eq_ok he, hr.congr (hcongr (by rw [updated, hl]))⟩
  | none =>
    refine ⟨doc, rfl, (Relabels.refl doc).congr fun j c hj => ?_⟩
    rw [← hcongr (g := fun as => as) (by rw [updated, hl]) j c hj]
    by_cases hji : j = id
    · cases c <;> simp [onNode, hji, Content.mapAttributes]
    · simp [onNode, hji]

theorem renameAll_relabels (id : NodeId) :
    ∀ (renames : List (String × String)) (doc : Document),
      Relabels (onNode id (Content.mapAttributes fun as =>
          renames.foldl (fun as (old, new) => renamed old new as) as)) doc
        (renames.foldl (fun doc (old, new) => (doc.renameAttribute id old new).2) doc)
  | [], doc => (Relabels.refl doc).congr fun j c _ => by
      by_cases hj : j = id
      · cases c <;> simp [onNode, hj, Content.mapAttributes]
      · simp [onNode, hj]
  | (old, new) :: renames, doc => by
    have h₁ := renameAttribute_relabels doc id old new
    have h₂ := renameAll_relabels id renames (doc.renameAttribute id old new).2
    refine (h₁.trans h₂).congr fun j c _ => ?_
    rw [onNode_onNode]
    simp only [Content.mapAttributes_mapAttributes, List.foldl_cons]

/-! ## Edits of the fields below an element -/

/-- A change of the contents of some nodes. -/
def onNodes (ids : List NodeId) (g : Content → Content) (j : NodeId) (c : Content) : Content :=
  if j ∈ ids then g c else c

theorem setTags_relabels (tag : String) :
    ∀ {ids : List NodeId} {doc : Document}, (∀ j ∈ ids, (doc.tag? j).isSome) →
      ∃ doc', ids.foldlM (fun doc id => expect (doc.setTag id tag)) doc = .ok doc' ∧
        Relabels (onNodes ids (Content.retag tag)) doc doc'
  | [], doc, _ => ⟨doc, rfl, (Relabels.refl doc).congr fun j c _ => by simp [onNodes]⟩
  | id :: ids, doc, h => by
    obtain ⟨t, ht⟩ := Option.isSome_iff_exists.1 (h id (List.mem_cons_self ..))
    obtain ⟨doc₁, he₁, h₁⟩ := setTag_relabels ht tag
    have hids : ∀ j ∈ ids, (doc₁.tag? j).isSome := by
      intro j hj
      obtain ⟨t', ht'⟩ := Option.isSome_iff_exists.1 (h j (List.mem_cons_of_mem _ hj))
      obtain ⟨as, hc⟩ := exists_attributes_of_tag? ht'
      rw [Document.tag?, h₁.content?, hc]
      by_cases hji : j = id <;> simp [onNode, hji, Content.retag, Content.tag?]
    obtain ⟨doc₂, he₂, h₂⟩ := setTags_relabels tag hids
    refine ⟨doc₂, ?_, (h₁.trans h₂).congr fun j c _ => ?_⟩
    · rw [List.foldlM_cons, expect_eq_ok he₁]
      exact he₂
    · by_cases hji : j = id
      · by_cases hj : j ∈ ids <;> simp_all [onNode, onNodes, Content.retag_retag]
      · by_cases hj : j ∈ ids <;> simp [onNode, onNodes, hji, hj]

theorem Relabels.walk {f : NodeId → Content → Content} (h : Relabels f doc doc') :
    ∀ (steps : Nat) (stack : List NodeId), doc'.walk steps stack = doc.walk steps stack
  | 0, _ => rfl
  | _ + 1, [] => rfl
  | steps + 1, j :: stack => by rw [Document.walk, Document.walk, h.children, h.walk]

theorem Relabels.descendants {f : NodeId → Content → Content} (h : Relabels f doc doc')
    (j : NodeId) : doc'.descendants j = doc.descendants j := by
  rw [Document.descendants, Document.descendants, h.walk, h.children, Maps.size h]

theorem Relabels.withTag {f : List Attribute → List Attribute}
    (h : Relabels (onNode id (Content.mapAttributes f)) doc doc') (j : NodeId) (tag : String) :
    doc'.withTag j tag = doc.withTag j tag := by
  rw [Document.withTag, Document.withTag, h.descendants]
  exact List.filter_congr fun k _ => by rw [hasTag, hasTag, h.tag?]

theorem tag?_of_mem_withTag {j : NodeId} {tag : String} (h : j ∈ doc.withTag id tag) :
    doc.tag? j = some tag := by
  simpa [hasTag] using (List.mem_filter.1 h).2

theorem relabel_onNode (id : NodeId) (f : Content → Content) :
    ∀ {t : NodeForest}, t.keys.Nodup →
      t.relabel (onNode id f) = t.rewriteAt id fun a b => .node (id, f a) b .nil
  | .nil, _ => rfl
  | .node p b c, hn => by
    simp only [Forest.keys_node, List.nodup_cons, List.nodup_append, List.mem_append, not_or] at hn
    obtain ⟨⟨hpb, -⟩, hb, hc, -⟩ := hn
    have ihb := relabel_onNode id f hb
    have ihc := relabel_onNode id f hc
    by_cases hp : p.1 = id
    · rw [← hp, Forest.rewriteAt_of_notMem hpb] at ihb
      rw [← hp] at ihc
      simp [Forest.rewriteAt, ← hp, ihb, ihc, onNode]
    · rw [Forest.relabel_node, Forest.rewriteAt_node_ne hp, ihb, ihc, onNode, if_neg hp]

theorem Shows.descendants_subset :
    ∀ {q : Option NodeId} {t : NodeForest}, doc.Shows q t → t.keys.Nodup → id ∈ t.keys →
      doc.descendants id ⊆ t.keys
  | _, .nil, _, _, hid => by simp at hid
  | q, .node p b c, ht, hn, hid => by
    have hd := Shows.descendants ht
    simp only [Forest.keys_node, List.nodup_cons, List.nodup_append, List.mem_cons,
      List.mem_append] at hn hid ⊢
    obtain ⟨-, hb, hc, -⟩ := hn
    intro j hj
    rw [List.mem_cons, List.mem_append]
    rcases hid with rfl | hid | hid
    · rw [hd hb] at hj
      exact Or.inr (Or.inl hj)
    · exact Or.inr (Or.inl (Shows.descendants_subset ht.2.1 hb hid hj))
    · exact Or.inr (Or.inr (Shows.descendants_subset ht.2.2 hc hid hj))

/-- Changes an element, and turns the fields below it into parameters. -/
def onFields (doc : Document) (id : NodeId) (f : Content → Content) (j : NodeId) (c : Content) :
    Content :=
  onNode id f j (onNodes (doc.withTag id "field") (Content.retag "param") j c)

theorem onFields_of_notMem (f : Content → Content) {j : NodeId} (hj : j ≠ id)
    (hd : j ∉ doc.descendants id) (c : Content) : onFields doc id f j c = c := by
  have hfield : j ∉ doc.withTag id "field" := fun hm => hd (List.mem_filter.1 hm).1
  simp [onFields, onNode, onNodes, hj, hfield]

theorem relabel_onFields_of_notMem (f : Content → Content) {s : NodeForest} (hid : id ∉ s.keys)
    (hd : ∀ j ∈ s.keys, j ∉ doc.descendants id) : s.relabel (onFields doc id f) = s := by
  refine Forest.relabel_id' fun r hr => ?_
  have hrk : r.1 ∈ s.keys := List.mem_map.2 ⟨r, hr, rfl⟩
  have hne : r.1 ≠ id := fun he => hid (he ▸ hrk)
  exact onFields_of_notMem f hne (hd _ hrk) _

theorem Shows.relabel_onFields (f : Content → Content) {q : Option NodeId} {b : NodeForest}
    (hb : doc.Shows q b) (hid : id ∉ b.keys) (hd : doc.descendants id = b.keys) :
    b.relabel (onFields doc id f) = b.relabel fun _ => Content.fieldToParam := by
  refine Forest.map_congr fun r hr => ?_
  have hrk : r.1 ∈ b.keys := List.mem_map.2 ⟨r, hr, rfl⟩
  have hne : r.1 ≠ id := fun he => hid (he ▸ hrk)
  have hc := hb.content? hr
  simp only [onFields, onNode, if_neg hne, onNodes, Document.withTag, hd, List.mem_filter, hrk,
    true_and, hasTag, Document.tag?, hc, Option.bind_some, decide_eq_true_eq]
  cases r.2 with
  | element tag as =>
    by_cases ht : tag = "field" <;>
      simp [Content.tag?, Content.retag, Content.fieldToParam, ht]
  | text v => rfl
  | cdata v => rfl
  | comment v => rfl

/-- A change of an element and of the fields below it, seen in the tree. -/
theorem Shows.relabel_fields (f : Content → Content) (hf : id ∉ doc.withTag id "field") :
    ∀ {q : Option NodeId} {t : NodeForest}, doc.Shows q t → t.keys.Nodup → id ∈ t.keys →
      t.relabel (onFields doc id f) =
        t.rewriteAt id fun a b => .node (id, f a) (b.relabel fun _ => Content.fieldToParam) .nil
  | _, .nil, _, _, _ => rfl
  | q, .node p b c, ht, hn, hid => by
    have hdesc := Shows.descendants ht
    obtain ⟨-, hsb, hsc⟩ := ht
    simp only [Forest.keys_node, List.nodup_cons, List.nodup_append, List.mem_append, not_or] at hn
    obtain ⟨⟨hpb, hpc⟩, hb, hc, hbc⟩ := hn
    simp only [Forest.keys_node, List.mem_cons, List.mem_append] at hid
    by_cases hpi : p.1 = id
    · subst hpi
      have hd := hdesc hb
      have hafter := relabel_onFields_of_notMem f hpc fun j hj hm => hbc j (hd ▸ hm) j hj rfl
      rw [Forest.relabel_node, hsb.relabel_onFields f hpb hd, hafter, Forest.rewriteAt, if_pos rfl,
        Forest.rewriteAt_of_notMem hpc]
      simp [onFields, onNode, onNodes, hf]
    · have hd : p.1 ∉ doc.descendants id := by
        intro hm
        rcases hid with hid | hid | hid
        · exact hpi hid.symm
        · exact hpb (hsb.descendants_subset hb hid hm)
        · exact hpc (hsc.descendants_subset hc hid hm)
      rw [Forest.relabel_node, onFields_of_notMem f hpi hd, Forest.rewriteAt_node_ne hpi]
      rcases hid with hid | hid | hid
      · exact absurd hid.symm hpi
      · have hic : id ∉ c.keys := fun hm => hbc id hid id hm rfl
        rw [Shows.relabel_fields f hf hsb hb hid, Forest.rewriteAt_of_notMem hic,
          relabel_onFields_of_notMem f hic fun j hj hm =>
            hbc j (hsb.descendants_subset hb hid hm) j hj rfl]
      · have hib : id ∉ b.keys := fun hm => hbc id hm id hid rfl
        rw [Shows.relabel_fields f hf hsc hc hid, Forest.rewriteAt_of_notMem hib,
          relabel_onFields_of_notMem f hib fun j hj hm =>
            hbc j hj j (hsc.descendants_subset hc hid hm) rfl]

end Document

/-! ## One element under a rule -/

namespace Canonical

open Document

variable {rule : Rule} {aliases : Assoc String} {doc : Document} {id : NodeId}

theorem renameEvent_relabels (rule : Rule) (aliases : Assoc String) {t : String}
    (ht : doc.tag? id = some t) :
    ∃ doc', (renameEvent rule aliases doc id).result = .ok doc' ∧
      Relabels (onNode id (Content.mapAttributes (updated "event" (rule.event aliases))))
        doc doc' := by
  obtain ⟨doc', he, hr⟩ := updateAttribute_relabels ht "event" (rule.event aliases)
  refine ⟨doc', ?_, hr⟩
  rw [renameEvent]
  cases ha : doc.attribute? id "event" with
  | some name =>
    rw [ha] at he
    simp only [Attempt.result_bind, Attempt.result_lift, Except.bind]
    exact Compile.result_document he
  | none =>
    rw [ha] at he
    simp only [Attempt.result_bind, Attempt.result_lift, Except.bind, Attempt.result_pure]
    exact congrArg _ (Except.ok.inj he)

theorem respondInCond_relabels (rule : Rule) {t : String} (ht : doc.tag? id = some t) :
    ∃ doc', (match if rule.respondsInCond then doc.attribute? id "cond" else none with
      | some cond => expect (doc.setAttribute id "cond" (Text.replaceFirst "_res." eventData cond))
      | none => .ok doc) = .ok doc' ∧
      Relabels (onNode id (Content.mapAttributes fun as =>
        if rule.respondsInCond then updated "cond" (Text.replaceFirst "_res." eventData) as
        else as)) doc doc' := by
  cases rule.respondsInCond with
  | true => exact updateAttribute_relabels ht "cond" (Text.replaceFirst "_res." eventData)
  | false =>
    refine ⟨doc, rfl, (Relabels.refl doc).congr fun j c _ => ?_⟩
    by_cases hj : j = id
    · cases c <;> simp [onNode, hj, Content.mapAttributes]
    · simp [onNode, hj]

/-- The fields that a rule turns into parameters below an element. -/
def fieldsOf (rule : Rule) (doc : Document) (id : NodeId) : List NodeId :=
  if rule.fieldsToParams then doc.withTag id "field" else []

theorem fields_relabels (rule : Rule) (doc : Document) (id : NodeId) :
    ∃ doc', (if rule.fieldsToParams then
        (doc.withTag id "field").foldlM (fun doc field => expect (doc.setTag field "param")) doc
      else .ok doc) = .ok doc' ∧
      Relabels (onNodes (fieldsOf rule doc id) (Content.retag "param")) doc doc' := by
  unfold fieldsOf
  cases rule.fieldsToParams with
  | true => exact setTags_relabels "param" fun j hj => by rw [tag?_of_mem_withTag hj]; rfl
  | false => exact ⟨doc, rfl, (Relabels.refl doc).congr fun j c _ => by simp [onNodes]⟩

/-- The contents before an element under a rule takes its new tag or is split: it has its new
attributes, and the fields below it are parameters. -/
def prepared (rule : Rule) (aliases : Assoc String) (doc : Document) (id j : NodeId)
    (c : Content) : Content :=
  onNode id (Content.mapAttributes (rule.converted aliases)) j
    (onNodes (fieldsOf rule doc id) (Content.retag "param") j c)

theorem isSome_tag?_prepared (rule : Rule) (aliases : Assoc String) (doc : Document)
    (id j : NodeId) (c : Content) :
    (prepared rule aliases doc id j c).tag?.isSome = c.tag?.isSome := by
  unfold prepared onNode onNodes
  split <;> split <;> simp [Content.tag?_mapAttributes, Content.isSome_tag?_retag]

theorem notMem_fieldsOf (hf : rule.source ≠ "field") {j : NodeId}
    (hj : doc.tag? j = some rule.source) : j ∉ fieldsOf rule doc id := by
  unfold fieldsOf
  split
  · intro hm
    rw [tag?_of_mem_withTag hm, Option.some.injEq] at hj
    exact hf hj.symm
  · simp

theorem applyAt_relabels (aliases : Assoc String) (ht : doc.tag? id = some rule.source)
    (hf : rule.source ≠ "field") :
    ∃ doc', Relabels (prepared rule aliases doc id) doc doc' ∧
      (applyAt rule aliases doc id).result =
        (match rule.split with
          | some split => splitHandler rule.target split doc' id
          | none => Compile.edit (doc'.setTag id rule.target)).result := by
  have h₁ := renameAll_relabels id rule.renames doc
  have ht₁ := (h₁.tag? id).trans ht
  obtain ⟨doc₂, he₂, h₂⟩ := renameEvent_relabels rule aliases ht₁
  have ht₂ := (h₂.tag? id).trans ht₁
  have hfields : fieldsOf rule doc₂ id = fieldsOf rule doc id := by
    unfold fieldsOf
    rw [h₂.withTag, h₁.withTag]
  have hid : id ∉ fieldsOf rule doc id := notMem_fieldsOf hf ht
  obtain ⟨doc₃, he₃, h₃⟩ := fields_relabels rule doc₂ id
  rw [hfields] at h₃
  have ht₃ : doc₃.tag? id = some rule.source := by
    obtain ⟨as, hc⟩ := exists_attributes_of_tag? ht₂
    rw [tag?, h₃.content?, hc]
    simp [onNodes, hid, Content.tag?]
  obtain ⟨doc₄, he₄, h₄⟩ := respondInCond_relabels rule ht₃
  refine ⟨doc₄, (((h₁.trans h₂).trans h₃).trans h₄).congr fun j c _ => ?_, ?_⟩
  · by_cases hj : j = id
    · subst hj
      cases c <;> simp [prepared, onNode, onNodes, hid, Content.mapAttributes, Rule.converted]
    · simp [prepared, onNode, hj]
  · rw [applyAt]
    simp only [Attempt.result_bind, he₂, Except.ok_bind, Compile.result_document he₃]
    exact congrArg (Except.bind · _) (Compile.result_document he₄)

/-- Two new elements take the place of a node, which leaves the tree. The node may have left it
before. -/
theorem expand_tree {t : NodeForest} (h : doc.HasTree t) (hp : (doc.parent? id).isSome)
    (tag : String) (as bs : List Attribute) :
    ∃ doc₃ doc₄ doc₅,
      ((doc.createElement tag as).1.createElement tag bs).1.insertAfter id doc.size =
        (.ok (), doc₃) ∧
      doc₃.insertAfter doc.size (doc.size + 1) = (.ok (), doc₄) ∧
      doc₄.detach id = (.ok (), doc₅) ∧
      doc₅.HasTree (t.rewriteAt id fun _ _ =>
        .leaf (doc.size, .element tag as) ++ .leaf (doc.size + 1, .element tag bs)) ∧
      ∀ j, j ≠ id → j < doc.size →
        doc₅.content? j = doc.content? j ∧ doc₅.parent? j = doc.parent? j := by
  obtain ⟨p, hp⟩ := Option.isSome_iff_exists.1 hp
  obtain ⟨n, hn, -⟩ := exists_node?_of_parent? hp
  have hid : id < doc.size := lt_size_of_node? hn
  have hroot : doc.root < doc.size := h.linked.root_lt
  have hold : ∀ j : NodeId, j < doc.size → j ≠ doc.size ∧ j ≠ doc.size + 1 := fun j hj =>
    ⟨Nat.ne_of_lt hj, Nat.ne_of_lt (Nat.lt_succ_of_lt hj)⟩
  have h₂ := (h.createElement tag as).createElement tag bs
  have hnode : ∀ j, ((doc.createElement tag as).1.createElement tag bs).1.node? j =
      if j = doc.size + 1 then some ⟨.element tag bs, none, []⟩
      else if j = doc.size then some ⟨.element tag as, none, []⟩ else doc.node? j := by
    intro j
    rw [node?_createElement, node?_createElement, size_createElement]
  have hcontent : ∀ j, j < doc.size →
      ((doc.createElement tag as).1.createElement tag bs).1.content? j = doc.content? j := by
    intro j hj
    rw [content?, hnode, if_neg (hold j hj).2, if_neg (hold j hj).1, content?]
  have hparent : ∀ j, ((doc.createElement tag as).1.createElement tag bs).1.parent? j =
      doc.parent? j := by
    intro j
    rw [parent?_createElement, parent?_createElement]
  obtain ⟨doc₃, he₃, h₃, hc₃, hp₃, hn₃⟩ := h₂.insertAfter id doc.size (p := p)
    (c := .element tag as) ((hparent id).trans hp) (by simp [hnode]) (Nat.ne_of_gt hroot)
  have hr₃ : doc₃.root = doc.root := h₂.root_eq h₃ (by simp [hparent, hp])
  obtain ⟨doc₄, he₄, h₄, hc₄, hp₄, -⟩ := h₃.insertAfter doc.size (doc.size + 1)
    (p := p) (c := .element tag bs) (by simp [hp₃])
    (hn₃ _ _ (by simp) (by simp [hnode])) (hr₃ ▸ Ne.symm (hold _ hroot).2)
  have hid₄ : doc₄.parent? id = some p := by
    rw [hp₄, hp₃, hparent, if_neg (hold id hid).2, if_neg (hold id hid).1, hp]
  obtain ⟨doc₅, he₅, h₅, hc₅, hp₅⟩ := h₄.detach hid₄
  refine ⟨doc₃, doc₄, doc₅, he₃, he₄, he₅, ?_, fun j hj hlt => ⟨?_, ?_⟩⟩
  · have hout : doc.size ∉ t.keys := fun hm => Nat.lt_irrefl _ (h.shows.lt_size hm)
    rw [Forest.rewriteAt_rewriteAt fun hm => absurd hm hout,
      Forest.rewriteAt_rewriteAt fun _ => rfl]
      at h₅
    obtain ⟨hne, hne'⟩ := hold id hid
    simpa [Forest.rewriteAt, Forest.leaf, hne, Ne.symm hne, Ne.symm hne'] using h₅
  · rw [hc₅, hc₄, hc₃, hcontent j hlt]
  · rw [hp₅, hp₄, hp₃, hparent, if_neg hj, if_neg (hold j hlt).2, if_neg (hold j hlt).1]

/-- In `doc'` an element of `doc` has been rewritten: whatever waits below it, `place` is what
becomes of it. The other nodes are as they were. -/
structure Rewrites (doc : Document) (t : NodeForest) (id : NodeId) (content : Content)
    (place : Forest Content → Forest Content) (doc' : Document)
    (h : Content → NodeForest → NodeForest) : Prop where
  tree : doc'.HasTree (t.rewriteAt id h)
  content? : ∀ j, j ≠ id → j < doc.size → doc'.content? j = doc.content? j
  parent? : ∀ j, j ≠ id → j < doc.size → doc'.parent? j = doc.parent? j
  pending : ∀ {g : Content → Forest Content → Forest Content} {todo : List NodeId}, id ∉ todo →
    (∀ j ∈ todo, j < doc.size) → ∀ b,
      Forest.pending g todo (h content b) = place (Forest.pending g todo b)

theorem setTag_rewrites {t : NodeForest} (h : doc.HasTree t) {tag : String} {as : List Attribute}
    (hc : doc.content? id = some (.element tag as)) (target : String) :
    ∃ doc' h, doc.setTag id target = (.ok (), doc') ∧
      Rewrites doc t id (.element tag as) (.node (.element target as) · .nil) doc' h ∧
      (t.rewriteAt id h).keys = t.keys := by
  obtain ⟨doc', he, hr⟩ := setTag_relabels (tag?_of_content? hc) target
  have htree := h.relabel hr fun j c _ hsome => by
    by_cases hj : j = id
    · rw [onNode, if_pos hj, Content.isSome_tag?_retag]
      exact hsome
    · rwa [onNode, if_neg hj]
  have hrel := relabel_onNode id (Content.retag target) h.nodup
  rw [hrel] at htree
  refine ⟨doc', _, he, ⟨htree, fun j hj _ => ?_, fun j _ _ => hr.parent? j,
    fun {g todo} hid _ b => ?_⟩, by rw [← hrel, Forest.keys_relabel]⟩
  · rw [hr.content?]
    cases doc.content? j <;> simp [onNode, hj]
  · rw [Forest.pending, if_neg hid]
    rfl

/-- A handler becomes two transitions or takes its new tag. -/
theorem splitHandler_rewrites {split : Split} (hs : rule.split = some split) {t : NodeForest}
    (h : doc.HasTree t) (hp : (doc.parent? id).isSome) {tag : String} {as : List Attribute}
    (hc : doc.content? id = some (.element tag as)) :
    ∃ doc' h, (splitHandler rule.target split doc id).result = .ok doc' ∧
      Rewrites doc t id (.element tag as) (rule.place as) doc' h := by
  unfold splitHandler
  simp only [attribute?_of_content? hc]
  split
  · rename_i accept reject ha hr
    obtain ⟨doc₃, doc₄, doc₅, he₃, he₄, he₅, h₅, hframe⟩ := expand_tree h hp rule.target
      [⟨"event", (lookupAttribute "event" as).getD ""⟩, ⟨"cond", split.acceptCond⟩,
        ⟨"target", accept⟩]
      [⟨"event", (lookupAttribute "event" as).getD ""⟩, ⟨"cond", split.rejectCond⟩,
        ⟨"target", reject⟩]
    refine ⟨doc₅, _, ?_, ⟨h₅, fun j hj hlt => (hframe j hj hlt).1,
      fun j hj hlt => (hframe j hj hlt).2, fun {g todo} _ htodo b => ?_⟩⟩
    · have hs₁ : ∀ cs, (doc.createElement rule.target cs).1.size = doc.size + 1 :=
        size_createElement doc rule.target
      simp only [createElement] at he₃ hs₁ ⊢
      simp only [Attempt.result_bind, hs₁, Compile.result_edit he₃, Compile.result_edit he₄,
        Compile.result_edit he₅, Except.ok_bind, Attempt.result_lift, Attempt.result_pure]
    · have h₁ : doc.size ∉ todo := fun hm => Nat.lt_irrefl _ (htodo _ hm)
      have h₂ : doc.size + 1 ∉ todo := fun hm => Nat.not_succ_lt_self (htodo _ hm)
      simp [Forest.leaf, Forest.pending, h₁, h₂, Rule.place, hs, ha, hr]
  · rename_i hnone
    have hplace : rule.place as = (.node (.element rule.target as) · .nil) := by
      funext b
      unfold Rule.place
      rw [hs]
      simp only
    obtain ⟨doc', h', he, hw, -⟩ := setTag_rewrites h hc rule.target
    refine ⟨doc', h', ?_, hplace ▸ hw⟩
    simp only [Attempt.result_bind, Attempt.result_lift, Except.ok_bind]
    exact Compile.result_edit he

/-- An element with its new attributes takes its new tag or is split. -/
theorem finish_rewrites (rule : Rule) {t : NodeForest} (h : doc.HasTree t)
    (hp : (doc.parent? id).isSome) {tag : String} {as : List Attribute}
    (hc : doc.content? id = some (.element tag as)) :
    ∃ doc' h, (match rule.split with
        | some split => splitHandler rule.target split doc id
        | none => Compile.edit (doc.setTag id rule.target)).result = .ok doc' ∧
      Rewrites doc t id (.element tag as) (rule.place as) doc' h ∧
      (rule.split = none → (t.rewriteAt id h).keys = t.keys) := by
  cases hs : rule.split with
  | some split =>
    obtain ⟨doc', h', he, hw⟩ := splitHandler_rewrites hs h hp hc
    exact ⟨doc', h', he, hw, nofun⟩
  | none =>
    have hplace : rule.place as = (.node (.element rule.target as) · .nil) := by
      funext b
      unfold Rule.place
      rw [hs]
    obtain ⟨doc', h', he, hw, hk⟩ := setTag_rewrites h hc rule.target
    exact ⟨doc', h', Compile.result_edit he, hplace ▸ hw, fun _ => hk⟩

/-- Rewriting one element leaves the others waiting. -/
theorem Rewrites.awaits {doc' : Document} {t : NodeForest} {content : Content}
    {place : Forest Content → Forest Content} {h : Content → NodeForest → NodeForest}
    (hw : Rewrites doc t id content place doc' h) {tag : String} {stays : Prop}
    (hs : stays → ∀ j ∈ t.keys, j ∈ (t.rewriteAt id h).keys) {j : NodeId} (hj : j ≠ id)
    (ha : doc.Awaits t tag stays j) : doc'.Awaits (t.rewriteAt id h) tag stays j := by
  obtain ⟨as, hc⟩ := exists_attributes_of_tag? ha.tag?
  obtain ⟨n, hn, -⟩ := exists_node?_of_content? hc
  have hlt := lt_size_of_node? hn
  refine ⟨?_, ?_, fun h => hs h j (ha.mem h)⟩
  · rw [tag?, hw.content? j hj hlt]
    exact ha.tag?
  · rw [hw.parent? j hj hlt]
    exact ha.parent?

end Canonical

end SkillCompiler
