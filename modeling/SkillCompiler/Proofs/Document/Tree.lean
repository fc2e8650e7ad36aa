import Mathlib.Data.List.Perm.Subperm
import SkillCompiler.Document.Forest
import SkillCompiler.Document.Query
import SkillCompiler.Proofs.Document.Linked
import SkillCompiler.Proofs.Forest

/-!
# The tree of a document

`doc.HasTree t` says that the nodes reachable from the root, each with its content, form the tree
`t`. The searches and the view of a document as a forest read it off (`Shows.descendants`,
`HasTree.forest_eq`). An edit of contents relabels the tree, and an edit of the links rewrites it at
one node, also when that node is not in the tree.
-/

namespace SkillCompiler

/-- A tree of nodes with their contents. -/
abbrev NodeForest := Forest (NodeId × Content)

namespace Document

/-- The nodes of a forest are in the document, with these contents and children, its roots below
`parent`. -/
def Shows (doc : Document) : (parent : Option NodeId) → NodeForest → Prop
  | _, .nil => True
  | parent, .node p below after =>
    doc.node? p.1 = some ⟨p.2, parent, below.rootKeys⟩ ∧ doc.Shows (some p.1) below ∧
      doc.Shows parent after

/-- The tree at the root. -/
structure HasTree (doc : Document) (t : NodeForest) : Prop where
  linked : doc.Linked
  shows : doc.Shows none t
  nodup : t.keys.Nodup
  atRoot : ∃ content below, t = .node (doc.root, content) below .nil

/-! ## Reading the tree -/

theorem Shows.append {doc : Document} {parent : Option NodeId} :
    ∀ {s t : NodeForest}, doc.Shows parent (s ++ t) ↔ doc.Shows parent s ∧ doc.Shows parent t
  | .nil, t => by simp [Shows]
  | .node p b c, t => by simp [Shows, Shows.append (s := c), and_assoc]

theorem Shows.lt_size {doc : Document} {j : NodeId} :
    ∀ {parent : Option NodeId} {t : NodeForest}, doc.Shows parent t → j ∈ t.keys → j < doc.size
  | _, .nil, _, hj => by simp at hj
  | parent, .node p b c, h, hj => by
    obtain ⟨hn, hb, hc⟩ := h
    simp only [Forest.keys_node, List.mem_cons, List.mem_append] at hj
    rcases hj with rfl | hj | hj
    · exact lt_size_of_node? hn
    · exact Shows.lt_size hb hj
    · exact Shows.lt_size hc hj

/-- Below its roots a shown forest has only nodes with parents. -/
theorem Shows.parent?_isSome {doc : Document} {j : NodeId} :
    ∀ {parent : Option NodeId} {t : NodeForest}, doc.Shows parent t → j ∈ t.keys →
      doc.parent? j = parent ∨ (doc.parent? j).isSome
  | _, .nil, _, hj => by simp at hj
  | parent, .node p b c, h, hj => by
    obtain ⟨hn, hb, hc⟩ := h
    simp only [Forest.keys_node, List.mem_cons, List.mem_append] at hj
    rcases hj with rfl | hj | hj
    · exact Or.inl (parent?_of_node? hn)
    · rcases Shows.parent?_isSome hb hj with he | hs
      · exact Or.inr (by simp [he])
      · exact Or.inr hs
    · exact Shows.parent?_isSome hc hj

theorem Shows.content? {doc : Document} {p : NodeId × Content} :
    ∀ {parent : Option NodeId} {t : NodeForest}, doc.Shows parent t → p ∈ t.preorder →
      doc.content? p.1 = some p.2
  | _, .nil, _, hp => by simp at hp
  | parent, .node q b c, h, hp => by
    obtain ⟨hn, hb, hc⟩ := h
    simp only [Forest.preorder_node, List.mem_cons, List.mem_append] at hp
    rcases hp with rfl | hp | hp
    · exact content?_of_node? hn
    · exact Shows.content? hb hp
    · exact Shows.content? hc hp

/-- The walk visits a shown forest in document order and goes on with the rest of the stack. -/
theorem Shows.walk {doc : Document} :
    ∀ {parent : Option NodeId} {t : NodeForest} (steps : Nat) (stack : List NodeId),
      doc.Shows parent t → t.size ≤ steps →
        doc.walk steps (t.rootKeys ++ stack) = t.keys ++ doc.walk (steps - t.size) stack
  | _, .nil, steps, stack, _, _ => by simp
  | parent, .node p b c, steps, stack, h, hs => by
    obtain ⟨hn, hb, hc⟩ := h
    simp only [Forest.size_node] at hs
    obtain ⟨steps, rfl⟩ : ∃ m, steps = m + 1 := ⟨steps - 1, by omega⟩
    rw [Forest.rootKeys_node, List.cons_append, Document.walk, children_of_node? hn,
      Shows.walk steps _ hb (by omega), Shows.walk _ stack hc (by omega), Forest.keys_node,
      Forest.size_node, List.cons_append, List.append_assoc,
      show steps - b.size - c.size = steps + 1 - (b.size + 1 + c.size) by omega]

theorem walk_nil (doc : Document) : ∀ steps, doc.walk steps [] = []
  | 0 => rfl
  | _ + 1 => rfl

/-- Different nodes are no more than the table has places. -/
theorem Shows.size_le {doc : Document} {parent : Option NodeId} {t : NodeForest}
    (h : doc.Shows parent t) (ht : t.keys.Nodup) : t.size ≤ doc.size := by
  have hsub : t.keys ⊆ List.range doc.size := fun j hj => List.mem_range.2 (h.lt_size hj)
  have hle := (List.subperm_of_subset ht hsub).length_le
  rwa [Forest.length_keys, List.length_range] at hle

/-- The descendants of a node in a shown forest are the nodes below it. -/
theorem Shows.descendants {doc : Document} {parent : Option NodeId} {p : NodeId × Content}
    {b c : NodeForest} (h : doc.Shows parent (.node p b c)) (hb : b.keys.Nodup) :
    doc.descendants p.1 = b.keys := by
  have hw := Shows.walk doc.size [] h.2.1 (Shows.size_le h.2.1 hb)
  rw [List.append_nil, walk_nil, List.append_nil] at hw
  rw [Document.descendants, children_of_node? h.1, hw]

theorem treesAt_nil (doc : Document) : ∀ depth, doc.treesAt depth [] = .nil
  | 0 => rfl
  | _ + 1 => rfl

/-- A shown forest is read off the table, down to any depth that it does not exceed. -/
theorem Shows.treesAt {doc : Document} :
    ∀ {parent : Option NodeId} {t : NodeForest} (depth : Nat), doc.Shows parent t →
      t.size ≤ depth → doc.treesAt depth t.rootKeys = t.map Prod.snd
  | _, .nil, depth, _, _ => treesAt_nil doc depth
  | parent, .node p b c, depth, h, hd => by
    obtain ⟨hn, hb, hc⟩ := h
    simp only [Forest.size_node] at hd
    obtain ⟨depth, rfl⟩ : ∃ m, depth = m + 1 := ⟨depth - 1, by omega⟩
    have ihb := Shows.treesAt depth hb (by omega)
    have ihc := Shows.treesAt (depth + 1) hc (by omega)
    rw [Document.treesAt] at ihc
    rw [Forest.rootKeys_node, Document.treesAt, List.foldr_cons, ihc, content?_of_node? hn,
      children_of_node? hn, ihb, Forest.map_node]

namespace HasTree

variable {doc doc' : Document} {t : NodeForest}

theorem forest_eq (h : doc.HasTree t) : doc.forest = t.map Prod.snd := by
  obtain ⟨content, below, ht⟩ := h.atRoot
  have hs := h.shows.treesAt doc.size (h.shows.size_le h.nodup)
  rwa [ht, Forest.rootKeys_node, Forest.rootKeys_nil, ← ht] at hs

/-- A search from the root goes through what is below the root. -/
theorem withTag (h : doc.HasTree t) {content : Content} {below : NodeForest}
    (ht : t = .node (doc.root, content) below .nil) (tag : String) :
    doc.withTag doc.root tag = below.keys.filter (doc.hasTag · tag) := by
  have hb : below.keys.Nodup := by
    have hn := h.nodup
    rw [ht, Forest.keys_node, Forest.keys_nil, List.append_nil, List.nodup_cons] at hn
    exact hn.2
  have hd := Shows.descendants (ht ▸ h.shows) hb
  rw [Document.withTag, hd]

end HasTree

/-! ## Edits of the contents -/

theorem Shows.relabel {f : NodeId → Content → Content} {doc doc' : Document}
    (h : Relabels f doc doc') :
    ∀ {parent : Option NodeId} {t : NodeForest}, doc.Shows parent t →
      doc'.Shows parent (t.relabel f)
  | _, .nil, _ => trivial
  | parent, .node p b c, ht => by
    obtain ⟨hn, hb, hc⟩ := ht
    rw [Forest.relabel_node]
    refine ⟨?_, Shows.relabel h hb, Shows.relabel h hc⟩
    rw [h.node?, hn, Option.map_some, Forest.rootKeys_relabel]

theorem HasTree.relabel {f : NodeId → Content → Content} {doc doc' : Document} {t : NodeForest}
    (h : doc.HasTree t) (hr : Relabels f doc doc')
    (hf : ∀ j c, doc.content? j = some c → c.tag?.isSome → (f j c).tag?.isSome) :
    doc'.HasTree (t.relabel f) where
  linked := hr.linked h.linked hf
  shows := h.shows.relabel hr
  nodup := by rw [Forest.keys_relabel]; exact h.nodup
  atRoot := by
    obtain ⟨content, below, ht⟩ := h.atRoot
    exact ⟨f doc.root content, below.relabel f, by rw [ht, hr.root]; rfl⟩

/-! ## Edits of the links -/

section Relink

variable {doc doc' : Document} {id : NodeId} {new : List NodeId}
  {parent : NodeId → Option NodeId → Option NodeId}

theorem Maps.node?_relink (h : Maps (relink id new parent) doc doc') {j : NodeId} {c : Content}
    {q : Option NodeId} {l : List NodeId} (hj : doc.node? j = some ⟨c, q, l⟩)
    (hq : parent j q = q) : doc'.node? j = some ⟨c, q, splice id new l⟩ := by
  rw [h.node?, hj, Option.map_some, relink, hq]

/-- Where the node does not occur, nothing changes. -/
theorem Shows.relink_of_notMem (h : Maps (relink id new parent) doc doc') :
    ∀ {q : Option NodeId} {t : NodeForest}, doc.Shows q t → id ∉ t.keys →
      (∀ j ∈ t.keys, ∀ r, parent j r = r) → doc'.Shows q t
  | _, .nil, _, _, _ => trivial
  | q, .node p b c, ht, hid, hpar => by
    obtain ⟨hn, hb, hc⟩ := ht
    simp only [Forest.keys_node, List.mem_cons, List.mem_append, not_or] at hid hpar
    refine ⟨?_, relink_of_notMem h hb hid.2.1 fun j hj => hpar j (Or.inr (Or.inl hj)),
      relink_of_notMem h hc hid.2.2 fun j hj => hpar j (Or.inr (Or.inr hj))⟩
    rw [h.node?_relink hn (hpar _ (Or.inl rfl) q),
      splice_of_notMem fun hm => hid.2.1 (Forest.mem_keys_of_mem_rootKeys hm)]

/-- The forest is rewritten at the node. -/
theorem Shows.relink (h : Maps (relink id new parent) doc doc')
    {g : Content → NodeForest → NodeForest} (hnew : ∀ a b, (g a b).rootKeys = new)
    (hg : ∀ q a b, doc.Shows q (.node (id, a) b .nil) → id ∉ b.keys →
      (∀ j ∈ b.keys, ∀ r, parent j r = r) → doc'.Shows q (g a b)) :
    ∀ {q : Option NodeId} {t : NodeForest}, doc.Shows q t → t.keys.Nodup →
      (∀ j ∈ t.keys, j ≠ id → ∀ r, parent j r = r) → doc'.Shows q (t.rewriteAt id g)
  | _, .nil, _, _, _ => trivial
  | q, .node p b c, ht, hnd, hpar => by
    obtain ⟨hn, hb, hc⟩ := ht
    simp only [Forest.keys_node, List.nodup_cons, List.nodup_append, List.mem_append,
      not_or] at hnd
    obtain ⟨⟨hpb, hpc⟩, hbn, hcn, -⟩ := hnd
    simp only [Forest.keys_node, List.mem_cons, List.mem_append] at hpar
    have ihb := Shows.relink h hnew hg hb hbn fun j hj => hpar j (Or.inr (Or.inl hj))
    have ihc := Shows.relink h hnew hg hc hcn fun j hj => hpar j (Or.inr (Or.inr hj))
    by_cases hp : p.1 = id
    · subst hp
      rw [Forest.rewriteAt, if_pos rfl, Shows.append]
      refine ⟨hg q p.2 b ⟨hn, hb, trivial⟩ hpb fun j hj => ?_, ihc⟩
      exact hpar j (Or.inr (Or.inl hj)) fun he => hpb (he ▸ hj)
    · rw [Forest.rewriteAt_node_ne hp]
      refine ⟨?_, ihb, ihc⟩
      rw [h.node?_relink hn (hpar _ (Or.inl rfl) hp q), Forest.rootKeys_rewriteAt hnew]
      rfl

end Relink

namespace HasTree

variable {doc doc' : Document} {t : NodeForest}

/-- A node with a parent can be detached, and the tree loses what it holds of that node. -/
theorem detach (h : doc.HasTree t) {id p : NodeId} (hp : doc.parent? id = some p) :
    ∃ doc', doc.detach id = (.ok (), doc') ∧ doc'.HasTree (t.rewriteAt id fun _ _ => .nil) ∧
      (∀ j, doc'.content? j = doc.content? j) ∧
      ∀ j, doc'.parent? j = if j = id then none else doc.parent? j := by
  obtain ⟨doc', hd, hm⟩ := detach_maps h.linked hp
  have hroot : doc.root ≠ id := fun he => by simp [← he, h.linked.root_parent] at hp
  refine ⟨doc', hd, ⟨h.linked.detach hm, ?_, ?_, ?_⟩, hm.content?_relink, detach_parent? hm⟩
  · exact h.shows.relink hm (g := fun _ _ => .nil) (fun _ _ => rfl) (fun _ _ _ _ _ _ => trivial)
      h.nodup fun j _ hj r => if_neg hj
  · exact Forest.nodup_rewriteAt [] (by simp) (by simp) h.nodup (by simp)
  · obtain ⟨content, below, ht⟩ := h.atRoot
    exact ⟨content, _, by rw [ht, Forest.rewriteAt_node_ne hroot, hm.root]; rfl⟩

/-- A node outside the tree has no parent or is below such a node; a detached one is outside. -/
theorem notMem_of_detached (h : doc.HasTree t) {j : NodeId} (hp : doc.parent? j = none)
    (hr : j ≠ doc.root) : j ∉ t.keys := by
  intro hj
  obtain ⟨content, below, rfl⟩ := h.atRoot
  simp only [Forest.keys_node, Forest.keys_nil, List.append_nil, List.mem_cons] at hj
  rcases hj with hj | hj
  · exact hr hj
  · rcases Shows.parent?_isSome h.shows.2.1 hj with he | hs
    · simp [hp] at he
    · simp [hp] at hs

/-- A detached leaf can be put in after a node with a parent, and stands there in the tree. -/
theorem insertAfter (h : doc.HasTree t) (ref new : NodeId) {p : NodeId} {c : Content}
    (hp : doc.parent? ref = some p) (hn : doc.node? new = some ⟨c, none, []⟩)
    (hr : new ≠ doc.root) :
    ∃ doc', doc.insertAfter ref new = (.ok (), doc') ∧
      doc'.HasTree (t.rewriteAt ref fun a b => .node (ref, a) b (.leaf (new, c))) ∧
      (∀ j, doc'.content? j = doc.content? j) ∧
      (∀ j, doc'.parent? j = if j = new then some p else doc.parent? j) ∧
      ∀ j c', j ≠ new → doc.node? j = some ⟨c', none, []⟩ → doc'.node? j = some ⟨c', none, []⟩ := by
  have hn' : doc.parent? new = none := parent?_of_node? hn
  have hlt : new < doc.size := lt_size_of_node? hn
  have hout : new ∉ t.keys := h.notMem_of_detached hn' hr
  have hnr : new ≠ ref := by
    rintro rfl
    simp [hp] at hn'
  have hroot : doc.root ≠ ref := fun he => by simp [← he, h.linked.root_parent] at hp
  obtain ⟨doc', hd, hm⟩ := insertAfter_maps h.linked hp hn' hr
  have hpar : ∀ j, j ≠ new → ∀ r : Option NodeId, (if j = new then some p else r) = r :=
    fun j hj r => if_neg hj
  refine ⟨doc', hd, ⟨h.linked.insertAfter hp hn' hr hlt hm, ?_, ?_, ?_⟩, hm.content?_relink,
    insertAfter_parent? hlt hm, fun j c' hj hjn => hm.node?_relink hjn (hpar j hj none)⟩
  · refine h.shows.relink hm (fun _ _ => rfl) ?_ h.nodup
      fun j hj _ => hpar j fun he => hout (he ▸ hj)
    intro q a b hs hid hb
    obtain ⟨hq, hsb, -⟩ := hs
    have hqp : q = some p := by rw [← hp, parent?_of_node? hq]
    refine ⟨?_, hsb.relink_of_notMem hm hid hb, ?_, trivial, trivial⟩
    · rw [hm.node?_relink hq (hpar ref (Ne.symm hnr) q),
        splice_of_notMem fun hmem => hid (Forest.mem_keys_of_mem_rootKeys hmem)]
    · rw [hm.node?, hn, Option.map_some, relink, if_pos rfl, hqp]
      rfl
  · refine Forest.nodup_rewriteAt [new] ?_ ?_ h.nodup (by simpa using hout)
    · intro a b x hx
      simp only [Forest.leaf, Forest.keys_node, Forest.keys_nil, List.append_nil, List.mem_cons,
        List.mem_append, List.not_mem_nil, or_false] at hx ⊢
      exact hx
    · intro a b hb hk hf
      have hf' := hf new (by simp)
      simp only [Forest.leaf, Forest.keys_node, Forest.keys_nil, List.append_nil,
        List.nodup_cons, List.mem_append, List.mem_singleton, List.nodup_append, not_or]
      refine ⟨⟨hk, Ne.symm hf'.1⟩, hb, by simp, ?_⟩
      rintro x hx y hy rfl
      exact hf'.2 (hy ▸ hx)
  · obtain ⟨content, below, ht⟩ := h.atRoot
    exact ⟨content, _, by rw [ht, Forest.rewriteAt_node_ne hroot, hm.root]; rfl⟩

theorem root_eq (h : doc.HasTree t) {id : NodeId} {g : Content → NodeForest → NodeForest}
    (h' : doc'.HasTree (t.rewriteAt id g)) (hid : (doc.parent? id).isSome) :
    doc'.root = doc.root := by
  have hroot : doc.root ≠ id := fun he => by simp [← he, h.linked.root_parent] at hid
  obtain ⟨content, below, rfl⟩ := h.atRoot
  obtain ⟨content', below', he⟩ := h'.atRoot
  rw [Forest.rewriteAt_node_ne hroot, Forest.node.injEq, Prod.mk.injEq] at he
  exact he.1.1.symm

theorem createElement (h : doc.HasTree t) (tag : String) (as : List Attribute) :
    (doc.createElement tag as).1.HasTree t where
  linked := h.linked.createElement tag as
  shows := by
    have hs : ∀ {q : Option NodeId} {s : NodeForest}, doc.Shows q s →
        (doc.createElement tag as).1.Shows q s := by
      intro q s
      induction s generalizing q with
      | nil => exact fun _ => trivial
      | node p b c ihb ihc =>
        rintro ⟨hn, hb, hc⟩
        refine ⟨?_, ihb hb, ihc hc⟩
        rw [node?_createElement, if_neg (Nat.ne_of_lt (lt_size_of_node? hn)), hn]
    exact hs h.shows
  nodup := h.nodup
  atRoot := h.atRoot

end HasTree

end Document

end SkillCompiler
