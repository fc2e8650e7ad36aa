import SkillCompiler.Canonical.Statechart
import SkillCompiler.Proofs.Document.Attributes

/-!
# The canonical statechart as one rewriting

`rewrite` is what canonicalization does to a tree, in one recursion: declarations go with all that
is below them, and every other element is changed by its tag and by whether it is inside an element
whose fields become parameters. The rules, applied one after another to the whole tree, are one
recursion that looks up the rule of each element (`foldl_applied`), and together with the passes
before and after them they are `rewriteBelow` (`passes_eq_rewriteBelow`).
-/

namespace SkillCompiler

namespace Rule

/-- The attributes of an element under a rule. The name becomes the event and an older event gives
way to it; without a name the event is kept. -/
def attributes (rule : Rule) (aliases : Assoc String) (as : List Attribute) : List Attribute :=
  as.filterMap fun a =>
    if a.name = "name" then some ⟨"event", rule.event aliases a.value⟩
    else if a.name = "event" then
      if as.any fun b => b.name = "name" then none
      else some ⟨"event", rule.event aliases a.value⟩
    else if a.name = "cond" ∧ rule.respondsInCond then
      some ⟨"cond", Text.replaceFirst "_res." eventData a.value⟩
    else some a

/-- What an element with these attributes becomes: two transitions without children, if the rule
splits and both targets are named, and otherwise one element. -/
def place (rule : Rule) (as : List Attribute) (below : Forest Content) : Forest Content :=
  let target (split : Split) (accept reject : String) : Forest Content :=
    let event := (lookupAttribute "event" as).getD ""
    .leaf (.element rule.target
      [⟨"event", event⟩, ⟨"cond", split.acceptCond⟩, ⟨"target", accept⟩]) ++
    .leaf (.element rule.target
      [⟨"event", event⟩, ⟨"cond", split.rejectCond⟩, ⟨"target", reject⟩])
  match rule.split with
  | some split =>
    match lookupAttribute split.accept as, lookupAttribute split.reject as with
    | some accept, some reject => target split accept reject
    | _, _ => .node (.element rule.target as) below .nil
  | none => .node (.element rule.target as) below .nil

end Rule

namespace Canonical

/-- The attributes of an element that no rule names. -/
def plainAttributes (tag : String) (as : List Attribute) : List Attribute :=
  if tag = "data" then as.filter fun a => a.name ≠ "type"
  else if tag = "assign" then
    as.map fun a => if a.name = "expr" then ⟨"expr", withEventData a.value⟩ else a
  else as

/-- Rewrites what is below the root. `inside` says whether fields become parameters here. -/
def rewriteBelow (aliases : Assoc String) : (inside : Bool) → Forest Content → Forest Content
  | _, .nil => .nil
  | inside, .node (.element tag as) below after =>
    if declarationTags.contains tag then rewriteBelow aliases inside after
    else
      match Rule.all.find? fun rule => rule.source = tag with
      | some rule =>
        rule.place (rule.attributes aliases as)
          (rewriteBelow aliases (inside || rule.fieldsToParams) below) ++
          rewriteBelow aliases inside after
      | none =>
        .node (.element (if inside && tag = "field" then "param" else tag) (plainAttributes tag as))
          (rewriteBelow aliases inside below) (rewriteBelow aliases inside after)
  | inside, .node content below after =>
    .node content (rewriteBelow aliases inside below) (rewriteBelow aliases inside after)

/-- Rewrites a document: the root takes a name and the namespace, the rest is rewritten. -/
def rewrite (name : String) (aliases : Assoc String) : Forest Content → Forest Content
  | .node (.element tag as) below after =>
    .node (.element tag (setAttribute "xmlns" namespaceName (setAttribute "name" name as)))
      (rewriteBelow aliases false below) after
  | forest => forest

end Canonical

/-! ## Rules and attributes -/

/-- The attributes that the edits of a rule leave. -/
def Rule.converted (rule : Rule) (aliases : Assoc String) (as : List Attribute) :
    List Attribute :=
  let as := rule.renames.foldl (fun as (old, new) => renamed old new as) as
  let as := updated "event" (rule.event aliases) as
  if rule.respondsInCond then updated "cond" (Text.replaceFirst "_res." eventData) as else as

theorem Rule.converted_eq_attributes {rule : Rule} (hr : rule.renames = [("name", "event")])
    (aliases : Assoc String) {as : List Attribute} (h : Distinct as) :
    rule.converted aliases as = rule.attributes aliases as := by
  have hd := h.renamed "name" "event"
  have he : Distinct (updated "event" (rule.event aliases) (renamed "name" "event" as)) :=
    hd.updated
  have hk : Distinct (as.filter fun a => a.name ≠ "event" || a.name = "name") :=
    h.sublist List.filter_sublist
  simp only [converted, hr, List.foldl_cons, List.foldl_nil]
  rw [he.updated_eq_map, hd.updated_eq_map, renamed, hk.renameFirst_eq_map]
  unfold attributes
  by_cases hn : as.any fun a => a.name = "name"
  · rw [if_pos hn]
    simp only [hn, if_true, ← List.filterMap_eq_filter, ← List.filterMap_eq_map',
      List.filterMap_filterMap]
    split
    all_goals
      refine List.filterMap_congr fun a _ => ?_
      by_cases h1 : a.name = "name" <;> by_cases h2 : a.name = "event" <;>
        by_cases h3 : a.name = "cond" <;> simp_all [Option.guard]
  · have hnone : ∀ a ∈ as, a.name ≠ "name" := by simpa using hn
    rw [if_neg hn]
    simp only [← List.filterMap_eq_map', List.filterMap_filterMap]
    split
    all_goals
      refine List.filterMap_congr fun a ha => ?_
      have h1 := hnone a ha
      by_cases h2 : a.name = "event" <;> by_cases h3 : a.name = "cond" <;> simp_all

/-! ## Rules one after another -/

/-- A field as a parameter. -/
def Content.fieldToParam : Content → Content
  | element tag as => element (if tag = "field" then "param" else tag) as
  | c => c

namespace Rule

/-- The rule for an element among some rules. -/
def for? (rules : List Rule) (content : Content) : Option Rule :=
  rules.find? fun rule => content.tag? = some rule.source

/-- What some rules make of a forest, each element taking the first rule for its tag. -/
def applied (rules : List Rule) (aliases : Assoc String) :
    (inside : Bool) → Forest Content → Forest Content
  | _, .nil => .nil
  | inside, .node content below after =>
    match for? rules content with
    | some rule =>
      rule.place (rule.converted aliases content.attributes)
        (applied rules aliases (inside || rule.fieldsToParams) below) ++
        applied rules aliases inside after
    | none =>
      .node (if inside then content.fieldToParam else content)
        (applied rules aliases inside below) (applied rules aliases inside after)

/-- No rule makes an element that another one rewrites, and none is about fields or parameters. -/
def Apart (rules : List Rule) : Prop :=
  ∀ r ∈ rules, r.target ≠ "field" ∧ r.source ≠ "field" ∧ r.source ≠ "param" ∧
    ∀ s ∈ rules, s.source ≠ r.target

theorem apart_all : Apart all := by
  unfold Apart
  decide

theorem Apart.tail {rule : Rule} {rules : List Rule} (h : Apart (rule :: rules)) : Apart rules :=
  fun r hr =>
    have hr' := h r (List.mem_cons_of_mem _ hr)
    ⟨hr'.1, hr'.2.1, hr'.2.2.1, fun s hs => hr'.2.2.2 s (List.mem_cons_of_mem _ hs)⟩

variable {rules : List Rule} {aliases : Assoc String}

theorem for?_element_eq_none {tag : String} (h : ∀ r ∈ rules, r.source ≠ tag)
    (as : List Attribute) : for? rules (.element tag as) = none := by
  simp only [for?, List.find?_eq_none, Content.tag?, Option.some.injEq, decide_eq_true_eq]
  exact fun r hr he => h r hr he.symm

theorem mem_of_for? {rule : Rule} {content : Content} (h : for? rules content = some rule) :
    rule ∈ rules ∧ content.tag? = some rule.source := by
  refine ⟨List.mem_of_find?_eq_some h, ?_⟩
  simpa using List.find?_some h

theorem for?_fieldToParam (h : Apart rules) (content : Content) :
    for? rules content.fieldToParam = for? rules content := by
  cases content with
  | element tag as =>
    by_cases ht : tag = "field"
    · rw [Content.fieldToParam, if_pos ht, for?_element_eq_none fun r hr => (h r hr).2.2.1, ht,
        for?_element_eq_none fun r hr => (h r hr).2.1]
    · rw [Content.fieldToParam, if_neg ht]
  | text v => rfl
  | cdata v => rfl
  | comment v => rfl

theorem attributes_fieldToParam (content : Content) :
    content.fieldToParam.attributes = content.attributes := by
  cases content <;> rfl

theorem fieldToParam_fieldToParam (content : Content) :
    content.fieldToParam.fieldToParam = content.fieldToParam := by
  cases content with
  | element tag as =>
    simp only [Content.fieldToParam]
    by_cases ht : tag = "field" <;> simp [ht]
  | text v => rfl
  | cdata v => rfl
  | comment v => rfl

theorem fieldToParam_of_ne {tag : String} (h : tag ≠ "field") (as : List Attribute) :
    (Content.element tag as).fieldToParam = .element tag as := by
  rw [Content.fieldToParam, if_neg h]

theorem applied_append (inside : Bool) :
    ∀ s t : Forest Content, applied rules aliases inside (s ++ t) =
      applied rules aliases inside s ++ applied rules aliases inside t
  | .nil, t => rfl
  | .node c b a, t => by
    rw [Forest.node_append, applied, applied, applied_append inside a t]
    split
    · rw [Forest.append_assoc]
    · rw [Forest.node_append]

/-- What a rule puts in place is left alone by rules that are not about its target. -/
theorem applied_place {rule : Rule} (hf : rule.target ≠ "field")
    (ht : ∀ s ∈ rules, s.source ≠ rule.target) (inside : Bool) (as : List Attribute)
    (below : Forest Content) :
    applied rules aliases inside (rule.place as below) =
      rule.place as (applied rules aliases inside below) := by
  have hnode : ∀ (bs : List Attribute) (b : Forest Content),
      applied rules aliases inside (.node (.element rule.target bs) b .nil) =
        .node (.element rule.target bs) (applied rules aliases inside b) .nil := by
    intro bs b
    rw [applied, for?_element_eq_none ht, fieldToParam_of_ne hf, ite_self]
    rfl
  unfold place
  split
  · split
    · rw [applied_append, Forest.leaf, Forest.leaf, hnode, hnode]
      rfl
    · exact hnode _ _
  · exact hnode _ _

/-- One rule and then the others. -/
theorem applied_applied {rule : Rule} (h : Apart (rule :: rules)) :
    ∀ (x y : Bool) (t : Forest Content),
      applied rules aliases x (applied [rule] aliases y t) =
        applied (rule :: rules) aliases (y || x) t
  | _, _, .nil => rfl
  | x, y, .node c b a => by
    have iha := applied_applied h x y a
    obtain ⟨hf, -, -, hs⟩ := h rule (List.mem_cons_self ..)
    by_cases hc : c.tag? = some rule.source
    · have h1 : for? [rule] c = some rule := by simp [for?, hc]
      have h2 : for? (rule :: rules) c = some rule := by simp [for?, hc]
      have ihb := applied_applied h x (y || rule.fieldsToParams) b
      rw [applied, h1, applied, h2]
      simp only
      rw [applied_append, applied_place hf (fun s hm => hs s (List.mem_cons_of_mem _ hm)), ihb, iha,
        Bool.or_assoc, Bool.or_assoc, Bool.or_comm x]
    · have h1 : for? [rule] c = none := by simp [for?, hc]
      have h2 : for? (rule :: rules) c = for? rules c := by simp [for?, hc]
      have h3 : for? rules (if y then c.fieldToParam else c) = for? rules c := by
        cases y
        · rfl
        · exact for?_fieldToParam h.tail c
      have h4 : (if y then c.fieldToParam else c).attributes = c.attributes := by
        cases y
        · rfl
        · exact attributes_fieldToParam c
      rw [applied, h1]
      simp only
      rw [applied, h3, applied, h2]
      cases hr : for? rules c with
      | some r =>
        simp only
        rw [h4, applied_applied h (x || r.fieldsToParams) y b, iha, Bool.or_assoc]
      | none =>
        simp only
        rw [applied_applied h x y b, iha]
        cases y <;> cases x <;> simp [fieldToParam_fieldToParam]

theorem map_place {rule : Rule} {f : Content → Content}
    (hf : ∀ as, f (.element rule.target as) = .element rule.target as) (as : List Attribute)
    (below : Forest Content) : (rule.place as below).map f = rule.place as (below.map f) := by
  unfold place
  split
  · split
    · simp [Forest.leaf, hf]
    · simp [hf]
  · simp [hf]

theorem map_fieldToParam_map_fieldToParam (t : Forest Content) :
    (t.map Content.fieldToParam).map Content.fieldToParam = t.map Content.fieldToParam := by
  rw [Forest.map_map]
  exact Forest.map_congr fun c _ => fieldToParam_fieldToParam c

/-- Where fields become parameters, they do so after the rules as well as before. -/
theorem applied_true (h : Apart rules) :
    ∀ t : Forest Content,
      applied rules aliases true t = (applied rules aliases false t).map Content.fieldToParam
  | .nil => rfl
  | .node c b a => by
    have ihb := applied_true h b
    have iha := applied_true h a
    rw [applied, applied]
    cases hr : for? rules c with
    | some rule =>
      have hf := (h rule (mem_of_for? hr).1).1
      simp only [Bool.true_or, Bool.false_or]
      rw [Forest.map_append, map_place (fieldToParam_of_ne hf), iha, ihb]
      cases rule.fieldsToParams
      · rfl
      · rw [ihb, map_fieldToParam_map_fieldToParam]
    | none =>
      simp only [if_true, Bool.false_eq_true, if_false]
      rw [Forest.map_node, ihb, iha]

/-- What a rule makes of an element when it has been applied below it. -/
def inPlace (rule : Rule) (aliases : Assoc String) (content : Content) (below : Forest Content) :
    Forest Content :=
  rule.place (rule.converted aliases content.attributes)
    (if rule.fieldsToParams then below.map Content.fieldToParam else below)

theorem applied_eq_rewriteWhere {rule : Rule} (h : Apart [rule]) :
    ∀ t : Forest Content, applied [rule] aliases false t =
      t.rewriteWhere (fun c => c.tag? = some rule.source) (rule.inPlace aliases)
  | .nil => rfl
  | .node c b a => by
    have ihb := applied_eq_rewriteWhere h b
    have iha := applied_eq_rewriteWhere h a
    rw [applied, Forest.rewriteWhere]
    by_cases hc : c.tag? = some rule.source
    · have hr : for? [rule] c = some rule := by simp [for?, hc]
      simp only [hr, hc, decide_true, if_true, Bool.false_or]
      rw [iha, inPlace, ← ihb]
      cases rule.fieldsToParams
      · rfl
      · rw [applied_true h, if_pos rfl]
    · have hr : for? [rule] c = none := by simp [for?, hc]
      simp only [hr, hc, decide_false, Bool.false_eq_true, if_false, iha, ihb]

theorem applied_nil : ∀ t : Forest Content, applied [] aliases false t = t
  | .nil => rfl
  | .node c b a => by
    rw [applied, applied_nil b, applied_nil a]
    rfl

/-- Rules that are applied one after another look up the rule of each element. -/
theorem foldl_applied : ∀ {rules : List Rule}, Apart rules → ∀ t : Forest Content,
    rules.foldl (fun t rule => applied [rule] aliases false t) t = applied rules aliases false t
  | [], _, t => (applied_nil t).symm
  | rule :: rules, h, t => by
    rw [List.foldl_cons, foldl_applied h.tail, applied_applied h]
    rfl

end Rule

/-! ## All passes -/

namespace Canonical

/-- A data element loses its type. -/
def untyped : Content → Content
  | .element tag as =>
    .element tag (if tag = "data" then as.eraseP fun a => a.name = "type" else as)
  | c => c

/-- An assignment speaks of the event payload. -/
def assigned : Content → Content
  | .element tag as => .element tag (if tag = "assign" then updated "expr" withEventData as else as)
  | c => c

def isDeclaration (content : Content) : Bool :=
  content.tag?.any declarationTags.contains

/-- The passes on what is below the root, in their order. -/
def passes (aliases : Assoc String) (t : Forest Content) : Forest Content :=
  (Rule.applied Rule.all aliases false ((t.prune isDeclaration).map untyped)).map assigned

theorem untyped_of_ne {tag : String} (h : tag ≠ "data") (as : List Attribute) :
    untyped (.element tag as) = .element tag as := by
  rw [untyped, if_neg h]

theorem assigned_of_ne {tag : String} (h : tag ≠ "assign") (as : List Attribute) :
    assigned (.element tag as) = .element tag as := by
  rw [assigned, if_neg h]

theorem for?_untyped (rules : List Rule) (content : Content) :
    Rule.for? rules (untyped content) = Rule.for? rules content := by
  cases content <;> rfl

/-- What the passes that look at one element make of one that no rule is about. -/
theorem assigned_untyped (inside : Bool) (tag : String) {as : List Attribute} (h : Distinct as) :
    assigned (if inside then (untyped (.element tag as)).fieldToParam
      else untyped (.element tag as)) =
      .element (if inside && tag = "field" then "param" else tag) (plainAttributes tag as) := by
  by_cases hd : tag = "data"
  · subst hd
    rw [untyped, if_pos rfl, h.eraseP_eq_filter]
    cases inside <;> simp [Content.fieldToParam, assigned, plainAttributes]
  · rw [untyped_of_ne hd]
    by_cases ha : tag = "assign"
    · subst ha
      have hu := h.updated_eq_map "expr" withEventData
      cases inside <;> simp [Content.fieldToParam, assigned, plainAttributes, hu]
    · have hp : plainAttributes tag as = as := by rw [plainAttributes, if_neg hd, if_neg ha]
      rw [hp]
      cases inside
      · exact assigned_of_ne ha as
      · by_cases hf : tag = "field" <;> simp [Content.fieldToParam, hf, assigned, ha]

theorem assigned_untyped_of_tag?_eq_none (inside : Bool) {content : Content}
    (h : content.tag? = none) :
    assigned (if inside then (untyped content).fieldToParam else untyped content) = content := by
  cases content with
  | element tag as => simp [Content.tag?] at h
  | text v => cases inside <;> rfl
  | cdata v => cases inside <;> rfl
  | comment v => cases inside <;> rfl

theorem rewriteBelow_of_tag?_eq_none (aliases : Assoc String) (inside : Bool) {content : Content}
    (h : content.tag? = none) (below after : Forest Content) :
    rewriteBelow aliases inside (.node content below after) =
      .node content (rewriteBelow aliases inside below) (rewriteBelow aliases inside after) := by
  cases content with
  | element tag as => simp [Content.tag?] at h
  | text v => rfl
  | cdata v => rfl
  | comment v => rfl

theorem renames_of_mem_all : ∀ rule ∈ Rule.all, rule.renames = [("name", "event")] := by
  decide

theorem source_ne_data : ∀ rule ∈ Rule.all, rule.source ≠ "data" := by
  decide

theorem target_ne_assign : ∀ rule ∈ Rule.all, rule.target ≠ "assign" := by
  decide

theorem passes_eq_rewriteBelow_of_inside (aliases : Assoc String) :
    ∀ (inside : Bool) {t : Forest Content}, Document.Regular t →
      (Rule.applied Rule.all aliases inside ((t.prune isDeclaration).map untyped)).map assigned =
        rewriteBelow aliases inside t
  | _, .nil, _ => rfl
  | inside, .node content below after, h => by
    obtain ⟨hd, -, hb, ha⟩ := h
    have iha := passes_eq_rewriteBelow_of_inside aliases inside ha
    have ihb := fun inside => passes_eq_rewriteBelow_of_inside aliases inside hb
    cases ht : content.tag? with
    | none =>
      have hdecl : isDeclaration content = false := by rw [isDeclaration, ht]; rfl
      have hrule : Rule.for? Rule.all (untyped content) = none := by
        rw [for?_untyped, Rule.for?, List.find?_eq_none]
        simp [ht]
      rw [Forest.prune, hdecl, if_neg Bool.false_ne_true, Forest.map_node, Rule.applied, hrule]
      simp only
      rw [Forest.map_node, assigned_untyped_of_tag?_eq_none inside ht, ihb, iha,
        rewriteBelow_of_tag?_eq_none aliases inside ht]
    | some tag =>
      obtain ⟨as, rfl⟩ : ∃ as, content = .element tag as := by
        cases content with
        | element t as => exact ⟨as, by rw [Content.tag?, Option.some.injEq] at ht; rw [ht]⟩
        | text v => simp [Content.tag?] at ht
        | cdata v => simp [Content.tag?] at ht
        | comment v => simp [Content.tag?] at ht
      have hdas : Distinct as := hd
      have hdecl : isDeclaration (.element tag as) = declarationTags.contains tag := rfl
      rw [Forest.prune, hdecl, rewriteBelow]
      by_cases hdt : declarationTags.contains tag
      · rw [if_pos hdt, if_pos hdt, iha]
      · have hfor : Rule.for? Rule.all (untyped (.element tag as)) =
            Rule.all.find? fun rule => rule.source = tag := by
          rw [for?_untyped, Rule.for?]
          congr 1
          funext rule
          simp [Content.tag?, eq_comm]
        rw [if_neg hdt, if_neg hdt, Forest.map_node, Rule.applied, hfor]
        cases hr : Rule.all.find? fun rule => rule.source = tag with
        | none =>
          simp only
          rw [Forest.map_node, assigned_untyped inside tag hdas, ihb, iha]
        | some rule =>
          have hm := List.mem_of_find?_eq_some hr
          have hs : rule.source = tag := by simpa using List.find?_some hr
          simp only
          rw [Forest.map_append, Rule.map_place (assigned_of_ne (target_ne_assign rule hm)), ihb,
            iha, untyped_of_ne (hs ▸ source_ne_data rule hm),
            Rule.converted_eq_attributes (renames_of_mem_all rule hm) aliases hd,
            Content.attributes]

/-- The passes, one after another, are one rewriting. -/
theorem passes_eq_rewriteBelow (aliases : Assoc String) {t : Forest Content}
    (h : Document.Regular t) : passes aliases t = rewriteBelow aliases false t :=
  passes_eq_rewriteBelow_of_inside aliases false h

end Canonical

end SkillCompiler
