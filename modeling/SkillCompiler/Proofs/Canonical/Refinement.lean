import SkillCompiler.Proofs.Canonical.Passes

/-!
# Canonicalization refines the rewriting

Every pass of `canonicalize` succeeds on a document that has been read, and what it does to the tree
is a rewriting from the leaves up. Put together, the canonical statechart of a skill is there and is
`rewrite` of its tree (`canonicalize_forest`).
-/

namespace SkillCompiler

namespace Canonical

open Document

/-! ## The passes as sweeps -/

theorem sweeps_detach (tag : String) :
    Sweeps tag False (fun _ _ => .nil) fun doc id => expect (doc.detach id) where
  step {doc t id content todo} ht _ ha hid hawait := by
    obtain ⟨p, hp⟩ := Option.isSome_iff_exists.1 ha.parent?
    obtain ⟨doc', he, ht', hc', hp'⟩ := ht.detach hp
    refine ⟨doc', _, expect_eq_ok he, ht', fun j hj => ⟨?_, ?_, nofun⟩, fun b => rfl⟩
    · rw [tag?, hc']
      exact (hawait j hj).tag?
    · have hne : j ≠ id := fun he => hid (he ▸ hj)
      rw [hp', if_neg hne]
      exact (hawait j hj).parent?

/-- An edit of the content of one element, as part of a sweep. -/
theorem sweeps_of_relabels {ε : Type} {tag : String} {f : Content → Content}
    {edit : Document → NodeId → Except ε Document}
    (hedit : ∀ {doc : Document} {id : NodeId}, doc.tag? id = some tag →
      ∃ doc', edit doc id = .ok doc' ∧ Relabels (onNode id f) doc doc')
    (hf : ∀ c, (f c).tag? = c.tag?) :
    Sweeps tag False (fun c b => .node (f c) b .nil) edit where
  step {doc t id content todo} ht _ ha hid hawait := by
    obtain ⟨doc', he, hr⟩ := hedit ha.tag?
    have htag : ∀ j c, (onNode id f j c).tag? = c.tag? := by
      intro j c
      unfold onNode
      split
      · exact hf c
      · rfl
    have ht' := ht.relabel hr fun j c _ hc => by rwa [htag]
    rw [relabel_onNode _ f ht.nodup] at ht'
    refine ⟨doc', _, he, ht', fun j hj => ⟨?_, ?_, nofun⟩, fun b => ?_⟩
    · obtain ⟨as, hc⟩ := exists_attributes_of_tag? (hawait j hj).tag?
      rw [tag?, hr.content?, hc]
      exact htag j _
    · rw [hr.parent?]
      exact (hawait j hj).parent?
    · rw [Forest.pending, if_neg hid]
      rfl

theorem inPlace_fieldToParam {rule : Rule} (h : rule.target ≠ "field") (aliases : Assoc String)
    (content : Content) (below : Forest Content) :
    (rule.inPlace aliases content below).map Content.fieldToParam =
      rule.inPlace aliases content.fieldToParam (below.map Content.fieldToParam) := by
  unfold Rule.inPlace
  rw [Rule.map_place (Rule.fieldToParam_of_ne h), Rule.attributes_fieldToParam]
  split <;> rfl

/-- What is below an element, with fields turned into parameters if the rule does so. -/
def fieldLabel (rule : Rule) : Content → Content :=
  if rule.fieldsToParams then Content.fieldToParam else fun c => c

/-- The new attributes of an element and the new tags of the fields below it, seen in the tree. -/
theorem relabel_eq_rewriteAt {rule : Rule} {doc : Document} {t : NodeForest} {id : NodeId}
    (ht : doc.HasTree t) (ha : doc.Awaits t rule.source rule.fieldsToParams id)
    (hsf : rule.source ≠ "field") (aliases : Assoc String) :
    t.relabel (prepared rule aliases doc id) =
      t.rewriteAt id fun a b => .node (id, a.mapAttributes (rule.converted aliases))
        (b.relabel fun _ => fieldLabel rule) .nil := by
  have hid : id ∉ fieldsOf rule doc id := notMem_fieldsOf hsf ha.tag?
  unfold prepared fieldLabel
  unfold fieldsOf at hid ⊢
  cases hft : rule.fieldsToParams with
  | true =>
    rw [hft] at hid
    exact ht.shows.relabel_fields _ hid ht.nodup (ha.mem hft)
  | false =>
    have hid : ∀ b : NodeForest, (b.relabel fun _ c => c) = b := fun b =>
      Forest.relabel_id' fun _ _ => rfl
    simp only [Bool.false_eq_true, if_false, onNodes, List.not_mem_nil, hid]
    exact relabel_onNode id _ ht.nodup

theorem pending_fieldLabel {rule : Rule} (h : rule.target ≠ "field") (aliases : Assoc String)
    (todo : List NodeId) (b : NodeForest) :
    Forest.pending (rule.inPlace aliases) todo (b.relabel fun _ => fieldLabel rule) =
      if rule.fieldsToParams then
        (Forest.pending (rule.inPlace aliases) todo b).map Content.fieldToParam
      else Forest.pending (rule.inPlace aliases) todo b := by
  unfold fieldLabel
  cases rule.fieldsToParams with
  | true => exact Forest.pending_relabel (inPlace_fieldToParam h aliases) b
  | false => exact congrArg _ (Forest.relabel_id' fun _ _ => rfl)

theorem sweeps_applyAt {rule : Rule} (h : Rule.Apart [rule])
    (hsplit : rule.fieldsToParams → rule.split = none) (aliases : Assoc String) :
    Sweeps rule.source rule.fieldsToParams (rule.inPlace aliases)
      (fun doc id => (applyAt rule aliases doc id).result) where
  step {doc t id content todo} ht hc ha hid hawait := by
    obtain ⟨htf, hsf, -, -⟩ := h rule (List.mem_singleton_self _)
    obtain ⟨as, hc'⟩ := exists_attributes_of_tag? ha.tag?
    obtain rfl : content = .element rule.source as := Option.some.inj (hc.symm.trans hc')
    obtain ⟨doc₁, hr, he⟩ := applyAt_relabels aliases ha.tag? hsf
    have hc₁ : doc₁.content? id = some (.element rule.source (rule.converted aliases as)) := by
      rw [hr.content?, hc]
      simp [prepared, onNode, onNodes, notMem_fieldsOf hsf ha.tag?, Content.mapAttributes]
    have htree := relabel_eq_rewriteAt ht ha hsf aliases
    have ht₁ := ht.relabel hr fun j c _ hs => by rwa [isSome_tag?_prepared]
    have hawait₁ : ∀ j ∈ todo, doc₁.Awaits (t.relabel (prepared rule aliases doc id)) rule.source
        rule.fieldsToParams j := by
      intro j hj
      have hne : j ≠ id := fun he => hid (he ▸ hj)
      obtain ⟨bs, hcj⟩ := exists_attributes_of_tag? (hawait j hj).tag?
      refine ⟨?_, ?_, fun hm => (Forest.keys_relabel _ t).symm ▸ (hawait j hj).mem hm⟩
      · rw [tag?, hr.content?, hcj]
        simp [prepared, onNode, onNodes, hne, notMem_fieldsOf hsf (hawait j hj).tag?, Content.tag?]
      · rw [hr.parent?]
        exact (hawait j hj).parent?
    obtain ⟨doc₂, h₂, he₂, hw, hk⟩ := finish_rewrites rule ht₁
      (by rw [hr.parent?]; exact ha.parent?) hc₁
    have htree₂ : (t.relabel (prepared rule aliases doc id)).rewriteAt id h₂ =
        t.rewriteAt id fun a b => h₂ (a.mapAttributes (rule.converted aliases))
          (b.relabel fun _ => fieldLabel rule) := by
      rw [htree, Forest.rewriteAt_rewriteAt fun _ => rfl]
      simp only [Forest.rewriteAt_node_self, Forest.rewriteAt_nil, Forest.append_nil]
    refine ⟨doc₂, _, he.trans he₂, htree₂ ▸ hw.tree, ?_, fun b => ?_⟩
    · intro j hj
      rw [← htree₂]
      refine hw.awaits (fun hft k hkm => ?_) (fun he => hid (he ▸ hj)) (hawait₁ j hj)
      rwa [hk (hsplit hft)]
    · have hlt : ∀ j ∈ todo, j < doc₁.size := by
        intro j hj
        obtain ⟨bs, hcj⟩ := exists_attributes_of_tag? (hawait₁ j hj).tag?
        obtain ⟨n, hn, -⟩ := exists_node?_of_content? hcj
        exact lt_size_of_node? hn
      have hpend := hw.pending (g := rule.inPlace aliases) hid hlt
        (b.relabel fun _ => fieldLabel rule)
      rw [pending_fieldLabel htf] at hpend
      exact hpend

/-! ## The passes in order -/

/-- Passes that each rewrite what is below the root do so one after another. -/
theorem foldlM_holds {ε ι : Type} (pass : Document → ι → Except ε Document)
    (change : Forest Content → ι → Forest Content) {content : Content} :
    ∀ {l : List ι}, (∀ i ∈ l, ∀ {doc : Document} {below : Forest Content},
        doc.Holds content below → ∃ doc', pass doc i = .ok doc' ∧ doc'.root = doc.root ∧
          doc'.Holds content (change below i)) →
      ∀ {doc : Document} {below : Forest Content}, doc.Holds content below →
        ∃ doc', l.foldlM pass doc = .ok doc' ∧ doc'.root = doc.root ∧
          doc'.Holds content (l.foldl change below)
  | [], _, doc, below, hd => ⟨doc, rfl, rfl, hd⟩
  | i :: l, h, doc, below, hd => by
    obtain ⟨doc₁, he₁, hr₁, h₁⟩ := h i (List.mem_cons_self ..) hd
    obtain ⟨doc₂, he₂, hr₂, h₂⟩ := foldlM_holds pass change
      (fun k hk => h k (List.mem_cons_of_mem _ hk)) h₁
    refine ⟨doc₂, ?_, hr₂.trans hr₁, h₂⟩
    rw [List.foldlM_cons, he₁]
    exact he₂

theorem foldl_prune :
    ∀ (tags : List String) (t : Forest Content),
      tags.foldl (fun t tag => t.prune fun c => c.tag? = some tag) t =
        t.prune fun c => c.tag?.any tags.contains
  | [], t => by
    induction t with
    | nil => rfl
    | node c b a ihb iha =>
      rw [List.foldl_nil] at ihb iha
      cases hc : c.tag? <;> simp [Forest.prune, hc, ← ihb, ← iha]
  | tag :: tags, t => by
    rw [List.foldl_cons, foldl_prune tags, Forest.prune_prune]
    congr 1
    funext c
    cases c.tag? with
    | none => simp
    | some t => by_cases ht : t = tag <;> simp [ht]

variable {doc : Document} {content : Content} {below : Forest Content}

theorem detachAll_holds (h : doc.Holds content below) :
    ∃ doc', declarationTags.foldlM detachAll doc = .ok doc' ∧ doc'.root = doc.root ∧
      doc'.Holds content (below.prune isDeclaration) := by
  have hfold := foldlM_holds detachAll (fun t tag => t.prune fun c => c.tag? = some tag)
    (l := declarationTags) (fun tag _ doc below hd => by
      obtain ⟨doc', he, hr, hh⟩ := (sweeps_detach tag).foldlM hd
      rw [Forest.rewriteWhere_nil] at hh
      exact ⟨doc', he, hr, hh⟩) h
  rwa [foldl_prune] at hfold

/-- A change of all elements with a tag that leaves other contents alone. -/
theorem sweep_holds {ε : Type} (tag : String) (f : Content → Content)
    (edit : Document → NodeId → Except ε Document)
    (hedit : ∀ {doc : Document} {id : NodeId}, doc.tag? id = some tag →
      ∃ doc', edit doc id = .ok doc' ∧ Relabels (onNode id f) doc doc')
    (hf : ∀ c, (f c).tag? = c.tag?) (hother : ∀ c, c.tag? ≠ some tag → f c = c)
    (h : doc.Holds content below) :
    ∃ doc', (doc.withTag doc.root tag).foldlM edit doc = .ok doc' ∧ doc'.root = doc.root ∧
      doc'.Holds content (below.map f) := by
  obtain ⟨doc', he, hr, hh⟩ := (sweeps_of_relabels hedit hf).foldlM h
  rw [Forest.rewriteWhere_label fun c hc => hother c (by simpa using hc)] at hh
  exact ⟨doc', he, hr, hh⟩

/-- At an element the change of its attributes is all that a function of contents does. -/
theorem relabels_congr_at {doc' : Document} {id : NodeId} {tag : String} {f g : Content → Content}
    (ht : doc.tag? id = some tag) (h : Relabels (onNode id f) doc doc')
    (hfg : ∀ as, f (.element tag as) = g (.element tag as)) : Relabels (onNode id g) doc doc' := by
  obtain ⟨as, hc⟩ := exists_attributes_of_tag? ht
  refine h.congr fun j c hj => ?_
  by_cases hji : j = id
  · rw [hji, hc, Option.some.injEq] at hj
    rw [onNode, onNode, if_pos hji, if_pos hji, ← hj, hfg]
  · rw [onNode, onNode, if_neg hji, if_neg hji]

theorem dropDataTypes_holds (h : doc.Holds content below) :
    (dropDataTypes doc).root = doc.root ∧
      (dropDataTypes doc).Holds content (below.map untyped) := by
  have hsweep := sweep_holds (ε := DocumentError) "data" untyped
    (fun doc id => .ok (doc.removeAttribute id "type").2)
    (fun {doc id} ht => ⟨_, rfl,
      relabels_congr_at ht (removeAttribute_relabels doc id "type") fun as => rfl⟩)
    (fun c => by cases c <;> rfl)
    (fun c hc => by
      cases c with
      | element tag as => exact untyped_of_ne (by simpa [Content.tag?] using hc) as
      | text v => rfl
      | cdata v => rfl
      | comment v => rfl) h
  obtain ⟨doc', he, hr, hh⟩ := hsweep
  have hdrop : dropDataTypes doc = doc' := by
    have hpure := List.foldlM_pure (m := Except DocumentError) (b := doc)
      (f := fun (doc : Document) id => (doc.removeAttribute id "type").2)
      (l := doc.withTag doc.root "data")
    rw [← Except.ok.inj (hpure.symm.trans he), dropDataTypes]
  rw [hdrop]
  exact ⟨hr, hh⟩

theorem updateAssigns_holds (h : doc.Holds content below) :
    ∃ doc', updateAssigns doc = .ok doc' ∧ doc'.root = doc.root ∧
      doc'.Holds content (below.map assigned) := by
  refine sweep_holds "assign" assigned _ (fun {doc id} ht => ?_)
    (fun c => by cases c <;> rfl)
    (fun c hc => by
      cases c with
      | element tag as => exact assigned_of_ne (by simpa [Content.tag?] using hc) as
      | text v => rfl
      | cdata v => rfl
      | comment v => rfl) h
  obtain ⟨doc', he, hr⟩ := updateAttribute_relabels ht "expr" withEventData
  have hr' := relabels_congr_at (g := assigned) ht hr fun as => rfl
  cases ha : doc.attribute? id "expr" with
  | none =>
    rw [ha] at he
    exact ⟨doc', he, hr'⟩
  | some expr =>
    rw [ha] at he
    simp only
    by_cases hsame : withEventData expr = expr
    · -- The value that would be set is the one that is there.
      obtain ⟨as, hc⟩ := exists_attributes_of_tag? ht
      rw [attribute?_of_content? hc] at ha
      rw [if_pos hsame]
      refine ⟨doc, rfl, (Relabels.refl doc).congr fun j c hj => ?_⟩
      by_cases hji : j = id
      · rw [hji, hc, Option.some.injEq] at hj
        rw [onNode, if_pos hji, ← hj, assigned, if_pos rfl, updated, ha]
        simp only
        rw [hsame, setAttribute_eq_self ha]
      · rw [onNode, if_neg hji]
    · rw [if_neg hsame]
      exact ⟨doc', he, hr'⟩

theorem apply_result (rule : Rule) (aliases : Assoc String) (doc : Document) :
    (apply rule aliases doc).result =
      (doc.withTag doc.root rule.source).foldlM
        (fun doc id => (applyAt rule aliases doc id).result) doc := by
  rw [apply]
  split
  · rename_i h
    rw [h]
    rfl
  · rw [Attempt.result_bind, Attempt.result_lift]
    exact Attempt.result_foldlM _ _ _

theorem split_eq_none : ∀ rule ∈ Rule.all, rule.fieldsToParams → rule.split = none := by
  decide

theorem rules_holds (aliases : Assoc String) (h : doc.Holds content below) :
    ∃ doc', (Rule.all.foldlM (fun doc rule => apply rule aliases doc) doc).result = .ok doc' ∧
      doc'.root = doc.root ∧
      doc'.Holds content (Rule.applied Rule.all aliases false below) := by
  rw [Attempt.result_foldlM, ← Rule.foldl_applied Rule.apart_all]
  refine foldlM_holds _ _ (fun rule hrule doc below hd => ?_) h
  have hapart : Rule.Apart [rule] := by
    intro r hr
    rw [List.mem_singleton] at hr
    subst hr
    obtain ⟨h₁, h₂, h₃, h₄⟩ := Rule.apart_all r hrule
    exact ⟨h₁, h₂, h₃, fun s hs => h₄ s (List.mem_singleton.1 hs ▸ hrule)⟩
  rw [apply_result, Rule.applied_eq_rewriteWhere hapart]
  exact (sweeps_applyAt hapart (split_eq_none rule hrule) aliases).foldlM hd

/-! ## The root -/

theorem notMem_withTag_root (h : doc.Holds content below) (tag : String) :
    doc.root ∉ doc.withTag doc.root tag := by
  obtain ⟨t, ht, -⟩ := h
  have hn := ht.nodup
  simp only [Forest.keys_node, Forest.keys_nil, List.append_nil, List.nodup_cons] at hn
  rw [ht.withTag rfl]
  exact fun hm => hn.1 (List.mem_filter.1 hm).1

theorem setAttribute_holds {tag : String} {as : List Attribute}
    (h : doc.Holds (.element tag as) below) (name value : String) :
    ∃ doc', doc.setAttribute doc.root name value = (.ok (), doc') ∧ doc'.root = doc.root ∧
      doc'.Holds (.element tag (SkillCompiler.setAttribute name value as)) below ∧
      Relabels (onNode doc.root
        (Content.mapAttributes (SkillCompiler.setAttribute name value))) doc doc' := by
  obtain ⟨t, ht, rfl⟩ := h
  have hc : doc.content? doc.root = some (.element tag as) := content?_of_node? ht.shows.1
  obtain ⟨doc', he, hr⟩ := setAttribute_relabels (tag?_of_content? hc) name value
  refine ⟨doc', he, hr.root, ⟨t, ?_, rfl⟩, hr⟩
  have ht' := ht.relabel hr fun j c _ hsome => by
    by_cases hj : j = doc.root
    · rwa [onNode, if_pos hj, Content.tag?_mapAttributes]
    · rwa [onNode, if_neg hj]
  rwa [relabel_onNode _ _ ht.nodup, Forest.rewriteAt_node_self, ← hr.root] at ht'

/-- The name of the root says nothing about action clients. -/
theorem aliases_eq {doc' : Document} {f : List Attribute → List Attribute}
    (h : doc.Holds content below)
    (hr : Relabels (onNode doc.root (Content.mapAttributes f)) doc doc') :
    aliases doc' = aliases doc := by
  unfold aliases
  rw [hr.root, hr.withTag]
  congr 1
  refine List.filterMap_congr fun j hj => ?_
  have hne : j ≠ doc.root := fun he => notMem_withTag_root h _ (he ▸ hj)
  have hattr : ∀ name, doc'.attribute? j name = doc.attribute? j name := by
    intro name
    rw [attribute?, attributes, hr.content?, attribute?, attributes]
    cases doc.content? j <;> simp [onNode, hne]
  rw [aliasAt?, hattr, hattr, aliasAt?]

theorem withKind_eq_ok {name : String} (h : Text.contains skillWord name) (kind : SkillKind) :
    ∃ names, SkillNames.withKind name kind = .ok names ∧
      names.machine = names.className ++ kind.name := by
  obtain ⟨⟨before, after⟩, hcut⟩ := Option.isSome_iff_exists.1 h
  have hne : ¬ name.isEmpty := by
    intro he
    rw [String.isEmpty_iff] at he
    subst he
    have hsplit := Text.cut?_eq_some hcut
    simp [skillWord] at hsplit
  refine ⟨⟨String.ofList before ++ skillWord ++ kind.name, String.ofList before, kind.name⟩,
    ?_, rfl⟩
  simp only [SkillNames.withKind, SkillNames.splitRoot, if_neg hne, hcut]
  rfl

/-! ## The whole -/

/-- A skill that has been read has a canonical statechart, and its tree is the rewriting of the
skill's tree. -/
theorem canonicalize_forest {text name : String} {doc : Document}
    (hparse : Document.parse text = .ok doc)
    (hname : doc.attribute? doc.root "name" = some name)
    (hskill : Text.contains skillWord name) :
    ∃ c, (canonicalize doc).result = .ok c ∧
      SkillNames.withKind name (kindOf doc) = .ok c.names ∧
      c.document.forest =
        rewrite (c.names.className ++ (kindOf doc).name) (aliases doc) doc.forest := by
  obtain ⟨declaration, t, htree, rfl⟩ := exists_ofForest_of_parse hparse
  obtain ⟨tag, as, below, rfl, hreg⟩ := id htree
  have hholds : (ofForest declaration (.node (.element tag as) below .nil)).Holds
      (.element tag as) below :=
    ⟨number 1 below, hasTree_ofForest declaration htree, map_snd_number ..⟩
  generalize ofForest declaration (.node (.element tag as) below .nil) = doc at *
  obtain ⟨names, hnames, hmachine⟩ := withKind_eq_ok hskill (kindOf doc)
  obtain ⟨doc₁, he₁, hr₁, h₁, hrel⟩ := setAttribute_holds hholds "name" names.machine
  obtain ⟨doc₂, he₂, hr₂, h₂⟩ := detachAll_holds h₁
  obtain ⟨doc₃, he₃, hr₃, h₃, -⟩ := setAttribute_holds h₂ "xmlns" namespaceName
  obtain ⟨hr₄, h₄⟩ := dropDataTypes_holds h₃
  obtain ⟨doc₅, he₅, hr₅, h₅⟩ := rules_holds (aliases doc) h₄
  obtain ⟨doc₆, he₆, hr₆, h₆⟩ := updateAssigns_holds h₅
  refine ⟨⟨doc₆, names⟩, ?_, hnames, ?_⟩
  · rw [hr₂, hr₁] at he₃
    rw [canonicalize]
    simp only [Attempt.result_bind, hname, Option.getD_some, Attempt.result_ofExcept, hnames,
      Except.ok_bind, Attempt.result_lift, Compile.result_edit he₁, aliases_eq hholds hrel,
      Compile.result_document he₂, Compile.result_edit he₃, he₅, Compile.result_document he₆,
      Attempt.result_pure]
  · rw [h₆.forest_eq, hholds.forest_eq, rewrite, hmachine,
      ← passes_eq_rewriteBelow (aliases doc) hreg.2.2.1, passes]

/-- A skill that waits for a goal response. -/
def goalResponseSkill : Document :=
  ofForest none (.node (.element "s" [⟨"name", "NavSkill"⟩])
    (.leaf (.element "ros_action_handle_goal_response"
      [⟨"name", "/go"⟩, ⟨"accept", "a"⟩, ⟨"reject", "b"⟩])) .nil)

theorem canonicalize_forest_goalResponse :
    Document.parse
        "<s name=\"NavSkill\"><ros_action_handle_goal_response name=\"/go\" accept=\"a\" reject=\"b\"/></s>" =
      .ok goalResponseSkill ∧
    ∃ c, (canonicalize goalResponseSkill).result = .ok c ∧
      c.document.forest =
        .node (.element "s" [⟨"name", "NavSkillCondition"⟩, ⟨"xmlns", namespaceName⟩])
          (.leaf (.element "transition" [⟨"event", "go.GoalResponse"⟩,
            ⟨"cond", "_event.data.is_ok"⟩, ⟨"target", "a"⟩]) ++
          .leaf (.element "transition" [⟨"event", "go.GoalResponse"⟩,
            ⟨"cond", "_event.data.is_ok == false"⟩, ⟨"target", "b"⟩])) .nil := by
  have hparse : Document.parse
      "<s name=\"NavSkill\"><ros_action_handle_goal_response name=\"/go\" accept=\"a\" reject=\"b\"/></s>" =
      .ok goalResponseSkill := by decide +kernel
  have hname : goalResponseSkill.attribute? goalResponseSkill.root "name" = some "NavSkill" := by
    decide +kernel
  obtain ⟨c, hc, hnames, hforest⟩ := canonicalize_forest hparse hname (by decide +kernel)
  have hkind : SkillNames.withKind "NavSkill" (kindOf goalResponseSkill) =
      .ok ⟨"NavSkillCondition", "Nav", "Condition"⟩ := by decide +kernel
  rw [hkind] at hnames
  refine ⟨hparse, c, hc, ?_⟩
  rw [hforest, ← Except.ok.inj hnames]
  decide +kernel

end Canonical

end SkillCompiler
