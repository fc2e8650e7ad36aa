import SkillCompiler.Event.Basic
import SkillCompiler.Proofs.Document.RoundTrip
import SkillCompiler.Proofs.Document.Sweep

/-!
# The events of a tree

The searches behind `ofStatechart` go through the nodes below the root, and for a send through the
nodes below it, so the events are a function of the tree (`ofStatechart_eq`). They only look at
elements: where a text begins and ends, and whether it is there, does not matter
(`ofTree_settled`).
-/

namespace SkillCompiler

namespace Forest

variable {α β γ : Type}

/-- The nodes, each with what is below it, in the order of their labels. -/
def subtrees : Forest α → List (α × Forest α)
  | nil => []
  | node a below after => (a, below) :: (below.subtrees ++ after.subtrees)

theorem map_fst_subtrees : ∀ t : Forest α, t.subtrees.map Prod.fst = t.preorder
  | nil => rfl
  | node a b c => by
    rw [subtrees, List.map_cons, List.map_append, map_fst_subtrees b, map_fst_subtrees c,
      preorder_node]

theorem subtrees_map (f : α → β) :
    ∀ t : Forest α, (t.map f).subtrees = t.subtrees.map fun n => (f n.1, n.2.map f)
  | nil => rfl
  | node a b c => by
    rw [map_node, subtrees, subtrees, subtrees_map f b, subtrees_map f c, List.map_cons,
      List.map_append]

theorem subtrees_append : ∀ s t : Forest α, (s ++ t).subtrees = s.subtrees ++ t.subtrees
  | nil, t => rfl
  | node a b c, t => by
    rw [node_append, subtrees, subtrees, subtrees_append c t, List.cons_append, List.append_assoc]

end Forest

namespace Document

/-- What the document says about a node of a shown forest. -/
theorem Shows.subtrees {doc : Document} :
    ∀ {parent : Option NodeId} {t : NodeForest}, doc.Shows parent t → t.keys.Nodup →
      ∀ n ∈ t.subtrees, doc.content? n.1.1 = some n.1.2 ∧ doc.descendants n.1.1 = n.2.keys ∧
        doc.Shows (some n.1.1) n.2
  | _, .nil, _, _, n, hn => by simp [Forest.subtrees] at hn
  | parent, .node p b c, h, hk, n, hn => by
    simp only [Forest.keys_node, List.nodup_cons, List.nodup_append] at hk
    obtain ⟨-, hkb, hkc, -⟩ := hk
    simp only [Forest.subtrees, List.mem_cons, List.mem_append] at hn
    rcases hn with rfl | hn | hn
    · exact ⟨content?_of_node? h.1, h.descendants hkb, h.2.1⟩
    · exact Shows.subtrees h.2.1 hkb n hn
    · exact Shows.subtrees h.2.2 hkc n hn

theorem keys_eq_map_subtrees (t : NodeForest) : t.keys = t.subtrees.map fun n => n.1.1 := by
  rw [Forest.keys, ← Forest.map_fst_subtrees, List.map_map]
  rfl

theorem attribute?_eq {doc : Document} {id : NodeId} {c : Content} (h : doc.content? id = some c)
    (name : String) : doc.attribute? id name = lookupAttribute name c.attributes := by
  simp [attribute?, attributes, h]

theorem hasTag_eq {doc : Document} {id : NodeId} {c : Content} (h : doc.content? id = some c)
    (tag : String) : doc.hasTag id tag = decide (c.tag? = some tag) := by
  simp [hasTag, tag?, h]

end Document

namespace Event

open Document

/-! ## Events off the tree -/

def transitionOf? (c : Content) : Option Event :=
  if c.tag? = some "transition" then
    match lookupAttribute "event" c.attributes, lookupAttribute "target" c.attributes with
    | some name, some target => some (transition name target)
    | _, _ => none
  else none

/-- The parameters below a send. -/
def paramsOf (below : Forest Content) : Assoc String :=
  (below.preorder.filter fun c => c.tag? = some "param").foldl (fun params c =>
    Assoc.insert ((lookupAttribute "name" c.attributes).getD "")
      ((lookupAttribute "expr" c.attributes).getD "") params) []

def sendOf? (node : Content × Forest Content) : Option Event :=
  if node.1.tag? = some "send" then
    (lookupAttribute "event" node.1.attributes).map fun name => send name (paramsOf node.2)
  else none

/-- The events of what is below the root. -/
def ofTree (below : Forest Content) : List Event :=
  below.subtrees.filterMap (fun n => transitionOf? n.1) ++ below.subtrees.filterMap sendOf?

theorem paramsAt_eq {doc : Document} {id : NodeId} {parent : Option NodeId} {b : NodeForest}
    (hd : doc.descendants id = b.keys) (h : doc.Shows parent b) :
    paramsAt doc id = paramsOf (b.map Prod.snd) := by
  have htag : doc.withTag id "param" =
      (b.preorder.filter fun p => p.2.tag? = some "param").map Prod.fst := by
    rw [withTag, hd, Forest.keys, List.filter_map]
    refine congrArg _ (List.filter_congr fun p hp => ?_)
    exact hasTag_eq (h.content? hp) "param"
  rw [paramsAt, paramsOf, htag, Forest.preorder_map, List.filter_map, List.foldl_map,
    List.foldl_map]
  refine List.foldl_ext _ _ _ fun params p hp => ?_
  have hc := h.content? (List.mem_filter.1 hp).1
  rw [attribute?_eq hc, attribute?_eq hc]

/-- The events of a statechart are those of its tree. -/
theorem ofStatechart_eq {doc : Document} {content : Content} {below : Forest Content}
    (h : doc.Holds content below) : ofStatechart doc = ofTree below := by
  obtain ⟨t, ht, rfl⟩ := h
  have hk := ht.nodup
  simp only [Forest.keys_node, Forest.keys_nil, List.append_nil, List.nodup_cons] at hk
  have hroot : doc.descendants doc.root = t.subtrees.map fun n => n.1.1 := by
    rw [ht.shows.descendants hk.2, keys_eq_map_subtrees]
  have hnode := Shows.subtrees ht.shows.2.1 hk.2
  rw [ofStatechart, ofTree, transitionIds, sendIds, withAttribute, withAttribute, hroot,
    Forest.subtrees_map]
  simp only [List.filterMap_filter, List.filterMap_map]
  refine congrArg₂ _ (List.filterMap_congr fun n hn => ?_) (List.filterMap_congr fun n hn => ?_)
  · obtain ⟨hc, -, -⟩ := hnode n hn
    simp only [Function.comp_apply, hasTag_eq hc, transitionAt?, attribute?_eq hc, transitionOf?]
    by_cases htag : n.1.2.tag? = some "transition"
    · cases lookupAttribute "event" n.1.2.attributes <;>
        cases lookupAttribute "target" n.1.2.attributes <;> simp [htag]
    · simp [htag]
  · obtain ⟨hc, hd, hs⟩ := hnode n hn
    simp only [Function.comp_apply, hasTag_eq hc, sendAt?, attribute?_eq hc, paramsAt_eq hd hs,
      sendOf?]
    by_cases htag : n.1.2.tag? = some "send"
    · cases lookupAttribute "event" n.1.2.attributes <;> simp [htag]
    · simp [htag]

/-! ## Texts do not matter -/

/-- What looks at elements only does not see whether a forest is settled. -/
theorem filterMap_subtrees_settled {β : Type} {g : Content × Forest Content → Option β}
    (hleaf : ∀ c b, c.tag? = none → g (c, b) = none)
    (hbelow : ∀ c b, Regular b → g (c, settled [] b) = g (c, b)) :
    ∀ {f : Forest Content} (pending : List Char), Regular f →
      (settled pending f).subtrees.filterMap g = f.subtrees.filterMap g := by
  have hflushed : ∀ pending, (flushed pending).subtrees.filterMap g = [] := by
    intro pending
    unfold flushed
    split
    · rfl
    · simp [Forest.leaf, Forest.subtrees, hleaf (.text _) _ rfl]
  have hskip : ∀ {c : Content} (after : Forest Content), c.tag? = none →
      (Forest.node c .nil after).subtrees.filterMap g = after.subtrees.filterMap g := by
    intro c after hc
    rw [Forest.subtrees, List.filterMap_cons, hleaf _ _ hc]
    rfl
  intro f
  induction f with
  | nil => exact fun pending _ => hflushed pending
  | node c below after ihb iha =>
    intro pending hf
    obtain ⟨-, hnil, hb, ha⟩ := hf
    have hother : c.tag? = none →
        (flushed pending ++ .node c .nil (settled [] after)).subtrees.filterMap g =
          (Forest.node c below after).subtrees.filterMap g := by
      intro hc
      rw [hnil hc, Forest.subtrees_append, List.filterMap_append, hflushed, List.nil_append,
        hskip _ hc, hskip _ hc, iha [] ha]
    cases c with
    | element tag as =>
      rw [settled, Forest.subtrees_append, List.filterMap_append, hflushed, List.nil_append,
        Forest.subtrees, Forest.subtrees, List.filterMap_cons, List.filterMap_cons,
        List.filterMap_append, List.filterMap_append, ihb [] hb, iha [] ha, hbelow _ _ hb]
    | text value => rw [settled, iha _ ha, hnil rfl, hskip _ rfl]
    | cdata value => exact hother rfl
    | comment value => exact hother rfl

theorem paramsOf_settled {below : Forest Content} (h : Regular below) :
    paramsOf (settled [] below) = paramsOf below := by
  have hfilter : ∀ t : Forest Content, (t.preorder.filter fun c => c.tag? = some "param") =
      t.subtrees.filterMap fun n => if n.1.tag? = some "param" then some n.1 else none := by
    intro t
    rw [← Forest.map_fst_subtrees, List.filter_map, ← List.filterMap_eq_filter,
      List.map_filterMap]
    refine List.filterMap_congr fun n _ => ?_
    by_cases hn : n.1.tag? = some "param" <;> simp [hn, Option.guard]
  rw [paramsOf, paramsOf, hfilter, hfilter, filterMap_subtrees_settled _ (fun _ _ _ => rfl) [] h]
  intro c b hc
  simp [hc]

theorem ofTree_settled {below : Forest Content} (h : Regular below) :
    ofTree (settled [] below) = ofTree below := by
  unfold ofTree
  rw [filterMap_subtrees_settled (g := fun n => transitionOf? n.1) ?_ (fun _ _ _ => rfl) [] h,
    filterMap_subtrees_settled (g := sendOf?) ?_ ?_ [] h]
  · intro c b hc
    simp [sendOf?, hc]
  · intro c b hb
    simp only [sendOf?, paramsOf_settled hb]
  · intro c b hc
    simp [transitionOf?, hc]

end Event

end SkillCompiler
