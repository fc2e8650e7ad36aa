import SkillCompiler.Proofs.Canonical.Writable

/-!
# What has a place in the statechart

Canonicalization drops declarations, and what is below a goal response that becomes two transitions.
All other nodes are rewritten one by one, where they stand: the statechart lists the images of the
survivors in their order (`preorder_rewriteBelow`). A rule changes the name and the event of an
element and leaves the attributes it does not speak of (`lookupAttribute_attributes`).
-/

namespace SkillCompiler

open Document

/-- An attribute in a list that is changed item by item, if it comes from one attribute only. -/
theorem lookupAttribute_filterMap {f : Attribute → Option Attribute} {g : String → String}
    {old new : String} {as : List Attribute}
    (hold : ∀ a ∈ as, a.name = old → f a = some ⟨new, g a.value⟩)
    (hother : ∀ a ∈ as, a.name ≠ old → ∀ b, f a = some b → b.name ≠ new) :
    lookupAttribute new (as.filterMap f) = (lookupAttribute old as).map g := by
  induction as with
  | nil => rfl
  | cons a as ih =>
    rw [List.forall_mem_cons] at hold hother
    have ih := ih hold.2 hother.2
    rw [lookupAttribute_cons]
    by_cases ha : a.name = old
    · rw [List.filterMap_cons_some (hold.1 ha), lookupAttribute_cons, if_pos rfl, if_pos ha,
        Option.map_some]
    · rw [if_neg ha]
      cases hf : f a with
      | none => rw [List.filterMap_cons_none hf, ih]
      | some b =>
        rw [List.filterMap_cons_some hf, lookupAttribute_cons, if_neg (hother.1 ha b hf), ih]

/-- What is below the root. -/
def Document.below (doc : Document) : Forest Content :=
  match doc.forest with
  | .node _ below _ => below
  | .nil => .nil

theorem Document.Holds.below_eq {doc : Document} {content : Content} {below : Forest Content}
    (h : doc.Holds content below) : doc.below = below := by
  rw [Document.below, h.forest_eq]

namespace Rule

theorem lookupAttribute_attributes (rule : Rule) (aliases : Assoc String) (as : List Attribute)
    {name : String} (hname : name ∉ ["name", "event", "cond"]) :
    lookupAttribute name (rule.attributes aliases as) = lookupAttribute name as := by
  simp only [List.mem_cons, List.not_mem_nil, or_false, not_or] at hname
  obtain ⟨hn, he, hc⟩ := hname
  have hmap : lookupAttribute name (rule.attributes aliases as) =
      (lookupAttribute name as).map id := by
    refine lookupAttribute_filterMap (fun a _ ha => ?_) fun a _ ha b hb => ?_
    · subst ha
      rw [if_neg hn, if_neg he, if_neg fun h => hc h.1]
      rfl
    · split_ifs at hb <;> cases hb
      · exact Ne.symm he
      · exact Ne.symm he
      · exact Ne.symm hc
      · exact ha
  rw [hmap, Option.map_id, id]

theorem lookupAttribute_event_attributes (rule : Rule) (aliases : Assoc String)
    {as : List Attribute} {name : String} (hname : lookupAttribute "name" as = some name) :
    lookupAttribute "event" (rule.attributes aliases as) = some (rule.event aliases name) := by
  have hany : as.any fun a => a.name = "name" := by
    obtain ⟨a, ha, -⟩ := Option.map_eq_some_iff.1 hname
    exact List.any_eq_true.2 ⟨a, List.mem_of_find?_eq_some ha, by simpa using List.find?_some ha⟩
  -- An older event has gone, because there is a name.
  have hmap : lookupAttribute "event" (rule.attributes aliases as) =
      (lookupAttribute "name" as).map (rule.event aliases) := by
    refine lookupAttribute_filterMap (fun a _ ha => if_pos ha) fun a _ ha b hb => ?_
    rw [if_neg ha] at hb
    split_ifs at hb with he hc
    · cases hb
      exact show "cond" ≠ "event" by decide
    · cases hb
      exact he
  rw [hmap, hname, Option.map_some]

/-- Two transitions take the place of an element with all that is below it. -/
def replaces (rule : Rule) (as : List Attribute) : Bool :=
  rule.split.any fun split =>
    (lookupAttribute split.accept as).isSome && (lookupAttribute split.reject as).isSome

theorem preorder_place (rule : Rule) (as : List Attribute) (below : Forest Content) :
    (rule.place as below).preorder =
      (rule.place as .nil).preorder ++ if rule.replaces as then [] else below.preorder := by
  unfold place replaces
  cases rule.split with
  | none => simp
  | some split =>
    rcases haccept : lookupAttribute split.accept as with _ | accept <;>
      rcases hreject : lookupAttribute split.reject as with _ | reject <;>
      simp [haccept, hreject]

theorem replaces_attributes {rule : Rule} (hrule : rule ∈ all) (aliases : Assoc String)
    (as : List Attribute) : rule.replaces (rule.attributes aliases as) = rule.replaces as := by
  have hsplit : ∀ rule ∈ all, ∀ split ∈ rule.split,
      split.accept ∉ ["name", "event", "cond"] ∧ split.reject ∉ ["name", "event", "cond"] := by
    decide
  unfold replaces
  cases hs : rule.split with
  | none => rfl
  | some split =>
    obtain ⟨haccept, hreject⟩ := hsplit rule hrule split hs
    simp only [Option.any_some, lookupAttribute_attributes rule aliases as haccept,
      lookupAttribute_attributes rule aliases as hreject]

end Rule

namespace Canonical

/-- The nodes that have a place in the statechart, in order. With each stands whether fields become
parameters there. -/
def survivors : (inside : Bool) → Forest Content → List (Bool × Content)
  | _, .nil => []
  | inside, .node content below after =>
    if isDeclaration content then survivors inside after
    else
      match Rule.for? Rule.all content with
      | some rule =>
        (inside, content) ::
          ((if rule.replaces content.attributes then []
            else survivors (inside || rule.fieldsToParams) below) ++ survivors inside after)
      | none => (inside, content) :: (survivors inside below ++ survivors inside after)

/-- What canonicalization puts in the place of a node, without what is below it. -/
def image (aliases : Assoc String) (inside : Bool) (content : Content) : List Content :=
  (rewriteBelow aliases inside (.leaf content)).preorder

theorem for?_all_element (tag : String) (as : List Attribute) :
    Rule.for? Rule.all (.element tag as) = Rule.all.find? fun rule => rule.source = tag := by
  rw [Rule.for?]
  congr 1
  funext rule
  simp [Content.tag?, eq_comm]

theorem isDeclaration_element (tag : String) (as : List Attribute) :
    isDeclaration (.element tag as) = declarationTags.contains tag := rfl

variable {aliases : Assoc String} {content : Content}

theorem rewriteBelow_of_isDeclaration (hdecl : isDeclaration content = true) (inside : Bool)
    (below after : Forest Content) :
    rewriteBelow aliases inside (.node content below after) =
      rewriteBelow aliases inside after := by
  cases content with
  | element tag as => exact if_pos hdecl
  | text value => cases hdecl
  | cdata value => cases hdecl
  | comment value => cases hdecl

theorem rewriteBelow_of_for? {rule : Rule} (hdecl : isDeclaration content = false)
    (hrule : Rule.for? Rule.all content = some rule) (inside : Bool)
    (below after : Forest Content) :
    rewriteBelow aliases inside (.node content below after) =
      rule.place (rule.attributes aliases content.attributes)
        (rewriteBelow aliases (inside || rule.fieldsToParams) below) ++
        rewriteBelow aliases inside after := by
  have htag := (Rule.mem_of_for? hrule).2
  cases content with
  | element tag as =>
    rw [for?_all_element] at hrule
    rw [isDeclaration_element] at hdecl
    rw [rewriteBelow, if_neg (ne_true_of_eq_false hdecl), hrule, Content.attributes]
  | text value => cases htag
  | cdata value => cases htag
  | comment value => cases htag

theorem exists_rewriteBelow_of_for?_eq_none (aliases : Assoc String) (inside : Bool)
    (hdecl : isDeclaration content = false) (hrule : Rule.for? Rule.all content = none) :
    ∃ plain, ∀ below after, rewriteBelow aliases inside (.node content below after) =
      .node plain (rewriteBelow aliases inside below) (rewriteBelow aliases inside after) := by
  cases content with
  | element tag as =>
    rw [for?_all_element] at hrule
    rw [isDeclaration_element] at hdecl
    refine ⟨.element (if inside && tag = "field" then "param" else tag) (plainAttributes tag as),
      fun below after => ?_⟩
    rw [rewriteBelow, if_neg (ne_true_of_eq_false hdecl), hrule]
  | text value => exact ⟨_, fun _ _ => rfl⟩
  | cdata value => exact ⟨_, fun _ _ => rfl⟩
  | comment value => exact ⟨_, fun _ _ => rfl⟩

theorem image_of_for? {rule : Rule} (hdecl : isDeclaration content = false)
    (hrule : Rule.for? Rule.all content = some rule) (inside : Bool) :
    image aliases inside content =
      (rule.place (rule.attributes aliases content.attributes) .nil).preorder := by
  rw [image, Forest.leaf, rewriteBelow_of_for? hdecl hrule, rewriteBelow, rewriteBelow,
    Forest.append_nil]

/-- The statechart lists what the survivors become, in their order. -/
theorem preorder_rewriteBelow (aliases : Assoc String) :
    ∀ (inside : Bool) (t : Forest Content),
      (rewriteBelow aliases inside t).preorder =
        (survivors inside t).flatMap fun s => image aliases s.1 s.2
  | _, .nil => rfl
  | inside, .node content below after => by
    have iha := preorder_rewriteBelow aliases inside after
    have ihb := fun inside => preorder_rewriteBelow aliases inside below
    rw [survivors]
    cases hdecl : isDeclaration content with
    | true => rw [if_pos rfl, rewriteBelow_of_isDeclaration hdecl, iha]
    | false =>
      rw [if_neg Bool.false_ne_true]
      cases hrule : Rule.for? Rule.all content with
      | some rule =>
        have hmem := (Rule.mem_of_for? hrule).1
        rw [rewriteBelow_of_for? hdecl hrule, Forest.preorder_append, Rule.preorder_place,
          Rule.replaces_attributes hmem, iha, ihb, List.flatMap_cons, List.flatMap_append,
          image_of_for? hdecl hrule, List.append_assoc]
        split <;> rfl
      | none =>
        obtain ⟨plain, hplain⟩ := exists_rewriteBelow_of_for?_eq_none aliases inside hdecl hrule
        have himage : image aliases inside content = [plain] := by
          rw [image, Forest.leaf, hplain]
          rfl
        rw [hplain, Forest.preorder_node, iha, ihb, List.flatMap_cons, List.flatMap_append,
          himage, List.singleton_append]

/-- The statechart of a skill that was read is the rewritten skill. -/
theorem exists_holds_of_parse {text : String} {doc : Document} {c : Canonical}
    (hparse : Document.parse text = .ok doc) (hc : (canonicalize doc).result = .ok c) :
    ∃ root, c.document.Holds root (rewriteBelow (Canonical.aliases doc) false doc.below) := by
  obtain ⟨declaration, t, htree, rfl⟩ := exists_ofForest_of_parse hparse
  obtain ⟨tag, as, below, rfl, hreg⟩ := id htree
  have hholds : (ofForest declaration (.node (.element tag as) below .nil)).Holds
      (.element tag as) below :=
    ⟨number 1 below, hasTree_ofForest declaration htree, map_snd_number ..⟩
  rw [hholds.below_eq]
  exact ⟨_, holds_of_canonicalize hholds hreg.2.2.1 hc⟩

/-- The statechart of a skill that was read lists what the survivors become. -/
theorem preorder_below_of_parse {text : String} {doc : Document} {c : Canonical}
    (hparse : Document.parse text = .ok doc) (hc : (canonicalize doc).result = .ok c) :
    c.document.below.preorder =
      (survivors false doc.below).flatMap fun s => image (Canonical.aliases doc) s.1 s.2 := by
  obtain ⟨root, hchart⟩ := exists_holds_of_parse hparse hc
  rw [hchart.below_eq, preorder_rewriteBelow]

/-! ## Elements with an event -/

/-- Canonicalization makes one element of a node, which has an event and keeps the attributes that
no rule speaks of. -/
def Yields (aliases : Assoc String) (content : Content) (target event : String) : Prop :=
  ∀ inside, ∃ as, image aliases inside content = [.element target as] ∧
    lookupAttribute "event" as = some event ∧
    ∀ name ∉ ["name", "event", "cond"],
      lookupAttribute name as = lookupAttribute name content.attributes

/-- An element that a rule does not split has the event of its name. -/
theorem yields_of_mem {rule : Rule} (hrule : rule ∈ Rule.all) (hsplit : rule.split = none)
    {as : List Attribute} {name : String} (hname : lookupAttribute "name" as = some name)
    (aliases : Assoc String) :
    Yields aliases (.element rule.source as) rule.target (rule.event aliases name) := by
  have hrules : ∀ rule ∈ Rule.all, declarationTags.contains rule.source = false ∧
      (Rule.all.find? fun other => other.source = rule.source) = some rule := by
    decide
  obtain ⟨hdecl, hfor⟩ := hrules rule hrule
  rw [← isDeclaration_element rule.source as] at hdecl
  rw [← for?_all_element rule.source as] at hfor
  refine fun inside => ⟨rule.attributes aliases as, ?_,
    rule.lookupAttribute_event_attributes aliases hname,
    fun other hother => rule.lookupAttribute_attributes aliases as hother⟩
  rw [image_of_for? hdecl hfor, Rule.place, hsplit]
  rfl

end Canonical

end SkillCompiler
