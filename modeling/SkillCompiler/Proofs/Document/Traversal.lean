import SkillCompiler.Proofs.Document.Edits

/-!
# Walking an edited document

Edits may leave a loop among nodes that are not attached to the root, and a walk into the loop does
not end. A walk from the root never meets one: the root has no parent and every other node has one
parent at most, so a node that the root leads to stands at one depth only (`Depth.unique`), and no
depth reaches the size of the table (`Depth.lt_size`). Hence the links form a tree below the root
(`Linked.exists_hasTree`), and the bounds in `descendants`, `isAttached` and `forest` are never met:
the walk without a bound (`Visits`), the climb without a bound (`Attached`) and the unfolding
without a bound (`Unfolds`) all end, and with the same result.
-/

namespace SkillCompiler

namespace Document

/-! ## Walks without a bound -/

/-- The walk that starts with a stack ends, and has then visited these nodes. -/
inductive Visits (doc : Document) : (stack visited : List NodeId) → Prop
  | done : Visits doc [] []
  | next {id : NodeId} {stack visited : List NodeId} :
    Visits doc (doc.children id ++ stack) visited → Visits doc (id :: stack) (id :: visited)

/-- The chain of parents of a node reaches the root. -/
inductive Attached (doc : Document) : NodeId → Prop
  | root : Attached doc doc.root
  | step {id p : NodeId} : doc.parent? id = some p → Attached doc p → Attached doc id

/-- The recursion into children that starts at some nodes ends, and has then met these trees. -/
inductive Unfolds (doc : Document) : List NodeId → Forest Content → Prop
  | nil : Unfolds doc [] .nil
  | cons {id : NodeId} {ids : List NodeId} {content : Content} {below after : Forest Content} :
    doc.content? id = some content → Unfolds doc (doc.children id) below →
      Unfolds doc ids after → Unfolds doc (id :: ids) (.node content below after)

/-! ## Depths -/

/-- The chain of parents reaches the root in so many steps. -/
inductive Depth (doc : Document) : NodeId → Nat → Prop
  | root : Depth doc doc.root 0
  | step {id p : NodeId} {n : Nat} :
    doc.parent? id = some p → Depth doc p n → Depth doc id (n + 1)

section Depth

variable {doc : Document}

theorem attached_iff_depth {id : NodeId} : doc.Attached id ↔ ∃ n, doc.Depth id n := by
  constructor
  · intro h
    induction h with
    | root => exact ⟨0, .root⟩
    | step hp _ ih =>
      obtain ⟨n, hn⟩ := ih
      exact ⟨n + 1, .step hp hn⟩
  · rintro ⟨n, hn⟩
    induction hn with
    | root => exact .root
    | step hp _ ih => exact .step hp ih

theorem Depth.unique (hd : doc.Linked) {id : NodeId} {n m : Nat} (hn : doc.Depth id n)
    (hm : doc.Depth id m) : n = m := by
  induction hn generalizing m with
  | root =>
    cases hm with
    | root => rfl
    | step hp _ => simp [hd.root_parent] at hp
  | step hp _ ih =>
    cases hm with
    | root => simp [hd.root_parent] at hp
    | step hp' hm' =>
      rw [hp, Option.some.injEq] at hp'
      subst hp'
      rw [ih hm']

/-- The nodes on the way to the root are all different. -/
theorem Depth.exists_chain (hd : doc.Linked) {id : NodeId} {n : Nat} (h : doc.Depth id n) :
    ∃ chain : List NodeId, chain.length = n + 1 ∧ chain.Nodup ∧
      ∀ x ∈ chain, x < doc.size ∧ ∃ m ≤ n, doc.Depth x m := by
  induction h with
  | root => exact ⟨[doc.root], rfl, by simp, by
      simpa using ⟨hd.root_lt, Depth.root⟩⟩
  | @step id p n hp hdepth ih =>
    obtain ⟨chain, hlen, hnodup, hall⟩ := ih
    have hid : id ∉ chain := by
      intro hmem
      obtain ⟨-, m, hm, hdm⟩ := hall id hmem
      have := Depth.unique hd hdm (.step hp hdepth)
      omega
    refine ⟨id :: chain, by rw [List.length_cons, hlen], List.nodup_cons.2 ⟨hid, hnodup⟩, ?_⟩
    intro x hx
    rcases List.mem_cons.1 hx with rfl | hx
    · exact ⟨lt_size_of_parent? hp, n + 1, Nat.le_refl _, .step hp hdepth⟩
    · obtain ⟨hlt, m, hm, hdm⟩ := hall x hx
      exact ⟨hlt, m, by omega, hdm⟩

theorem Depth.lt_size (hd : doc.Linked) {id : NodeId} {n : Nat} (h : doc.Depth id n) :
    n < doc.size := by
  obtain ⟨chain, hlen, hnodup, hall⟩ := h.exists_chain hd
  have hsub : chain ⊆ List.range doc.size := fun x hx => List.mem_range.2 (hall x hx).1
  have hle := (List.subperm_of_subset hnodup hsub).length_le
  rw [hlen, List.length_range] at hle
  omega

theorem climbs_iff {steps : Nat} {id : NodeId} :
    doc.climbs steps id = true ↔ ∃ n ≤ steps, doc.Depth id n := by
  induction steps generalizing id with
  | zero =>
    simp only [climbs, decide_eq_true_eq, Nat.le_zero]
    constructor
    · rintro rfl
      exact ⟨0, rfl, .root⟩
    · rintro ⟨n, rfl, hn⟩
      cases hn with
      | root => rfl
  | succ steps ih =>
    simp only [climbs, Bool.or_eq_true, decide_eq_true_eq]
    constructor
    · rintro (rfl | h)
      · exact ⟨0, Nat.zero_le _, .root⟩
      · cases hp : doc.parent? id with
        | none => simp [hp] at h
        | some p =>
          rw [hp] at h
          obtain ⟨n, hn, hdn⟩ := ih.1 h
          exact ⟨n + 1, by omega, .step hp hdn⟩
    · rintro ⟨n, hn, hdn⟩
      cases hdn with
      | root => exact Or.inl rfl
      | step hp hdn =>
        rw [hp]
        exact Or.inr (ih.2 ⟨_, by omega, hdn⟩)

/-- The bound of the climb is never met. -/
theorem Linked.isAttached_iff (hd : doc.Linked) {id : NodeId} :
    doc.isAttached id = true ↔ doc.Attached id := by
  rw [isAttached, climbs_iff, attached_iff_depth]
  constructor
  · rintro ⟨n, -, hn⟩
    exact ⟨n, hn⟩
  · rintro ⟨n, hn⟩
    exact ⟨n, Nat.le_of_lt (hn.lt_size hd), hn⟩

end Depth

/-! ## The forest below an attached node -/

section Below

variable {doc : Document}

/-- The links below an attached node unfold into a forest. -/
theorem Linked.exists_shows (hd : doc.Linked) :
    ∀ (room n : Nat), doc.size ≤ n + room → ∀ {p : NodeId}, doc.Depth p n →
      ∀ ids : List NodeId, (∀ id ∈ ids, doc.parent? id = some p) →
        ∃ t : NodeForest, doc.Shows (some p) t ∧ t.rootKeys = ids
  | 0, n, hroom, p, hp, _, _ => by
    have := hp.lt_size hd
    omega
  | room + 1, n, hroom, p, hp, ids, hids => by
    induction ids with
    | nil => exact ⟨.nil, trivial, rfl⟩
    | cons id ids ih =>
      have hid : doc.parent? id = some p := hids id (by simp)
      obtain ⟨after, hafter, hkeys⟩ := ih fun x hx => hids x (by simp [hx])
      obtain ⟨node, hnode, hparent⟩ := exists_node?_of_parent? hid
      obtain ⟨below, hbelow, hchildren⟩ := Linked.exists_shows hd room (n + 1) (by omega)
        (.step hid hp) (doc.children id) fun c hc => (hd.mem_children id c).1 hc
      refine ⟨.node (id, node.content) below after, ⟨?_, hbelow, hafter⟩, ?_⟩
      · rw [hnode, hchildren, children_of_node? hnode, ← hparent]
      · rw [Forest.rootKeys_node, hkeys]

/-- So many steps up the chain of parents. -/
def climb (doc : Document) : (steps : Nat) → NodeId → Option NodeId
  | 0, id => some id
  | steps + 1, id => (doc.parent? id).bind (doc.climb steps)

theorem climb_succ {m : Nat} {x r p : NodeId} (h : doc.climb m x = some r)
    (hp : doc.parent? r = some p) : doc.climb (m + 1) x = some p := by
  induction m generalizing x with
  | zero =>
    simp only [climb, Option.some.injEq] at h
    simp [climb, h, hp]
  | succ m ih =>
    rw [climb, Option.bind_eq_some_iff] at h ⊢
    obtain ⟨y, hy, h⟩ := h
    exact ⟨y, hy, ih h⟩

theorem Depth.climb {m n : Nat} {x r : NodeId} (h : doc.climb m x = some r)
    (hr : doc.Depth r n) : doc.Depth x (n + m) := by
  induction m generalizing x with
  | zero =>
    simp only [Document.climb, Option.some.injEq] at h
    exact h ▸ hr
  | succ m ih =>
    rw [Document.climb, Option.bind_eq_some_iff] at h
    obtain ⟨y, hy, h⟩ := h
    exact .step hy (ih h)

/-- A node is below one node only at each depth. -/
theorem Depth.climb_unique (hd : doc.Linked) {m m' n : Nat} {x r r' : NodeId}
    (h : doc.climb m x = some r) (h' : doc.climb m' x = some r') (hr : doc.Depth r n)
    (hr' : doc.Depth r' n) : r = r' := by
  have hm := Depth.unique hd (hr.climb h) (hr'.climb h')
  obtain rfl : m = m' := by omega
  exact Option.some.inj (h.symm.trans h')

/-- Every node of a shown forest climbs to one of its roots. -/
theorem Shows.exists_climb {x : NodeId} :
    ∀ {q : Option NodeId} {t : NodeForest}, doc.Shows q t → x ∈ t.keys →
      ∃ r ∈ t.rootKeys, ∃ m, doc.climb m x = some r
  | _, .nil, _, hx => by simp at hx
  | q, .node p b c, h, hx => by
    obtain ⟨-, hb, hc⟩ := h
    simp only [Forest.keys_node, List.mem_cons, List.mem_append] at hx
    rw [Forest.rootKeys_node]
    rcases hx with rfl | hx | hx
    · exact ⟨_, List.mem_cons_self .., 0, rfl⟩
    · obtain ⟨r, hr, m, hm⟩ := Shows.exists_climb hb hx
      exact ⟨_, List.mem_cons_self .., m + 1, climb_succ hm (hb.parent?_of_mem_rootKeys hr)⟩
    · obtain ⟨r, hr, m, hm⟩ := Shows.exists_climb hc hx
      exact ⟨r, List.mem_cons_of_mem _ hr, m, hm⟩

theorem Shows.nodup_keys (hd : doc.Linked) :
    ∀ {q : Option NodeId} {t : NodeForest} {n : Nat}, doc.Shows q t →
      (∀ r ∈ t.rootKeys, doc.Depth r n) → t.rootKeys.Nodup → t.keys.Nodup
  | _, .nil, _, _, _, _ => by simp
  | q, .node p b c, n, h, hdepth, hnodup => by
    obtain ⟨hn, hb, hc⟩ := h
    rw [Forest.rootKeys_node] at hdepth hnodup
    obtain ⟨hpc, hnodup⟩ := List.nodup_cons.1 hnodup
    have hp : doc.Depth p.1 n := hdepth p.1 (List.mem_cons_self ..)
    have hafter : ∀ r ∈ c.rootKeys, doc.Depth r n := fun r hr =>
      hdepth r (List.mem_cons_of_mem _ hr)
    have hbelow : ∀ r ∈ b.rootKeys, doc.Depth r (n + 1) := fun r hr =>
      .step (hb.parent?_of_mem_rootKeys hr) hp
    have hchildren : b.rootKeys.Nodup := by
      have hcn := hd.nodup p.1
      rwa [children_of_node? hn] at hcn
    -- A node below `p` climbs to `p`, a node beside it climbs to one of its siblings.
    have hup : ∀ x ∈ b.keys, ∃ m, doc.climb (m + 1) x = some p.1 := by
      intro x hx
      obtain ⟨r, hr, m, hm⟩ := hb.exists_climb hx
      exact ⟨m, climb_succ hm (hb.parent?_of_mem_rootKeys hr)⟩
    have hbeside : ∀ x ∈ c.keys, ∀ m, doc.climb m x ≠ some p.1 := by
      intro x hx m hm
      obtain ⟨r, hr, m', hm'⟩ := hc.exists_climb hx
      exact hpc (Depth.climb_unique hd hm hm' hp (hafter r hr) ▸ hr)
    rw [Forest.keys_node, List.nodup_cons, List.mem_append, List.nodup_append]
    refine ⟨?_, Shows.nodup_keys hd hb hbelow hchildren, Shows.nodup_keys hd hc hafter hnodup, ?_⟩
    · rintro (hpb | hpc')
      · obtain ⟨m, hm⟩ := hup p.1 hpb
        have := Depth.unique hd hp (hp.climb hm)
        omega
      · exact hbeside p.1 hpc' 0 rfl
    · rintro x hxb y hyc rfl
      obtain ⟨m, hm⟩ := hup x hxb
      exact hbeside x hyc (m + 1) hm

/-- The forest below an attached node, which holds no node twice. -/
theorem Linked.exists_below (hd : doc.Linked) {id : NodeId} (h : doc.Attached id) :
    ∃ t : NodeForest, doc.Shows (some id) t ∧ t.rootKeys = doc.children id ∧ t.keys.Nodup := by
  obtain ⟨n, hn⟩ := attached_iff_depth.1 h
  have hchild : ∀ c ∈ doc.children id, doc.parent? c = some id := fun c hc =>
    (hd.mem_children id c).1 hc
  obtain ⟨t, ht, hkeys⟩ := hd.exists_shows doc.size n (by omega) hn (doc.children id) hchild
  refine ⟨t, ht, hkeys, ht.nodup_keys hd (fun r hr => .step (hchild r (hkeys ▸ hr)) hn) ?_⟩
  rw [hkeys]
  exact hd.nodup id

theorem Linked.exists_hasTree (hd : doc.Linked) :
    ∃ content t, doc.HasTree (.node (doc.root, content) t .nil) ∧
      doc.Shows (some doc.root) t ∧ t.rootKeys = doc.children doc.root ∧ t.keys.Nodup := by
  obtain ⟨t, ht, hkeys, hnodup⟩ := hd.exists_below .root
  obtain ⟨node, hnode⟩ := Option.isSome_iff_exists.1 (node?_isSome.2 hd.root_lt)
  have hroot : doc.root ∉ t.keys := by
    intro hm
    rcases ht.parent?_isSome hm with hp | hp
    · simp [hd.root_parent] at hp
    · simp [hd.root_parent] at hp
  have hparent : node.parent = none := by rw [← parent?_of_node? hnode, hd.root_parent]
  refine ⟨node.content, t, ⟨hd, ⟨?_, ht, trivial⟩, ?_, _, _, rfl⟩, ht, hkeys, hnodup⟩
  · rw [hnode, hkeys, children_of_node? hnode, ← hparent]
  · rw [Forest.keys_node, Forest.keys_nil, List.append_nil, List.nodup_cons]
    exact ⟨hroot, hnodup⟩

end Below

/-! ## What the walks of a shown forest come to -/

section Walks

variable {doc : Document}

theorem Shows.visits :
    ∀ {q : Option NodeId} {t : NodeForest} {stack visited : List NodeId}, doc.Shows q t →
      doc.Visits stack visited → doc.Visits (t.rootKeys ++ stack) (t.keys ++ visited)
  | _, .nil, _, _, _, h => h
  | q, .node p b c, stack, visited, ht, h => by
    obtain ⟨hn, hb, hc⟩ := ht
    have hrest := Shows.visits hb (Shows.visits hc h)
    rw [show b.rootKeys = doc.children p.1 from (children_of_node? hn).symm] at hrest
    rw [Forest.rootKeys_node, Forest.keys_node, List.cons_append, List.cons_append,
      List.append_assoc]
    exact .next hrest

theorem Shows.unfolds :
    ∀ {q : Option NodeId} {t : NodeForest}, doc.Shows q t →
      doc.Unfolds t.rootKeys (t.map Prod.snd)
  | _, .nil, _ => .nil
  | q, .node p b c, ht => by
    obtain ⟨hn, hb, hc⟩ := ht
    have hbelow := Shows.unfolds hb
    rw [show b.rootKeys = doc.children p.1 from (children_of_node? hn).symm] at hbelow
    exact .cons (content?_of_node? hn) hbelow (Shows.unfolds hc)

theorem Shows.mem_keys_of_mem_children {id x : NodeId} (hx : x ∈ doc.children id) :
    ∀ {q : Option NodeId} {t : NodeForest}, doc.Shows q t → id ∈ t.keys → x ∈ t.keys
  | _, .nil, _, hid => by simp at hid
  | q, .node p b c, ht, hid => by
    obtain ⟨hn, hb, hc⟩ := ht
    simp only [Forest.keys_node, List.mem_cons, List.mem_append] at hid ⊢
    rcases hid with rfl | hid | hid
    · rw [children_of_node? hn] at hx
      exact Or.inr (Or.inl (Forest.mem_keys_of_mem_rootKeys hx))
    · exact Or.inr (Or.inl (Shows.mem_keys_of_mem_children hx hb hid))
    · exact Or.inr (Or.inr (Shows.mem_keys_of_mem_children hx hc hid))

/-- The nodes of a shown forest are its roots, each followed by its descendants. -/
theorem Shows.keys_eq_flatMap :
    ∀ {q : Option NodeId} {t : NodeForest}, doc.Shows q t → t.keys.Nodup →
      t.keys = t.rootKeys.flatMap fun c => c :: doc.descendants c
  | _, .nil, _, _ => rfl
  | q, .node p b c, ht, hnodup => by
    simp only [Forest.keys_node, List.nodup_cons, List.nodup_append] at hnodup
    obtain ⟨-, hb, hc, -⟩ := hnodup
    have ihc := Shows.keys_eq_flatMap ht.2.2 hc
    rw [Forest.keys_node, Forest.rootKeys_node, List.flatMap_cons, ht.descendants hb, ← ihc,
      List.cons_append]

theorem Shows.descendants_eq_keys {id : NodeId} {t : NodeForest} (ht : doc.Shows (some id) t)
    (hkeys : t.rootKeys = doc.children id) (hnodup : t.keys.Nodup) :
    doc.descendants id = t.keys := by
  have hw := ht.walk doc.size [] (ht.size_le hnodup)
  rwa [List.append_nil, walk_nil, List.append_nil, hkeys] at hw

/-- Below the root stand the nodes whose chain of parents reaches it. -/
theorem Linked.mem_descendants_root (hd : doc.Linked) {id : NodeId} :
    id ∈ doc.descendants doc.root ↔ id ≠ doc.root ∧ doc.Attached id := by
  obtain ⟨content, t, htree, ht, hkeys, hnodup⟩ := hd.exists_hasTree
  rw [ht.descendants_eq_keys hkeys hnodup]
  have hroot := htree.nodup
  rw [Forest.keys_node, Forest.keys_nil, List.append_nil, List.nodup_cons] at hroot
  constructor
  · intro hid
    obtain ⟨r, hr, m, hm⟩ := ht.exists_climb hid
    have hdepth : doc.Depth r 1 := .step (ht.parent?_of_mem_rootKeys hr) .root
    refine ⟨?_, attached_iff_depth.2 ⟨_, hdepth.climb hm⟩⟩
    rintro rfl
    exact hroot.1 hid
  · rintro ⟨hne, hatt⟩
    induction hatt with
    | root => exact absurd rfl hne
    | @step id p hp hatt ih =>
      have hchild := (hd.mem_children p id).2 hp
      by_cases hpr : p = doc.root
      · rw [hpr, ← hkeys] at hchild
        exact Forest.mem_keys_of_mem_rootKeys hchild
      · exact ht.mem_keys_of_mem_children hchild (ih hpr)

end Walks

/-- In a document that has been read and edited, the walk from the root ends before it has taken as
many steps as there are nodes. It visits the nodes that are attached to the root, each once, a node
before its children. The document unfolds into a tree, so it can be written. -/
theorem run_walks {source : String} {doc doc' : Document} {edits : List Edit}
    (hparse : parse source = .ok doc) (hids : Edit.Issued doc edits)
    (hrun : Edit.run doc edits = doc') :
    doc'.Visits (doc'.children doc'.root) (doc'.descendants doc'.root) ∧
      (doc'.descendants doc'.root).length < doc'.size ∧
      (doc'.descendants doc'.root).Nodup ∧
      (∀ id, doc'.Attached id →
        doc'.descendants id = (doc'.children id).flatMap fun c => c :: doc'.descendants c) ∧
      (∀ id, id ∈ doc'.descendants doc'.root ↔ id ≠ doc'.root ∧ doc'.Attached id) ∧
      (∀ id, doc'.isAttached id = true ↔ doc'.Attached id) ∧
      doc'.Unfolds [doc'.root] doc'.forest := by
  have hd : doc'.Linked := hrun ▸ (linked_of_parse hparse).run hids
  obtain ⟨content, t, htree, ht, hkeys, hnodup⟩ := hd.exists_hasTree
  have hdesc := ht.descendants_eq_keys hkeys hnodup
  refine ⟨?_, ?_, ?_, fun id hid => ?_, fun id => hd.mem_descendants_root,
    fun id => hd.isAttached_iff, ?_⟩
  · have hvisits := ht.visits (.done)
    rwa [List.append_nil, List.append_nil, hkeys, ← hdesc] at hvisits
  · have hsize := htree.shows.size_le htree.nodup
    rw [Forest.size_node, Forest.size_nil] at hsize
    rw [hdesc, Forest.length_keys]
    omega
  · rw [hdesc]
    exact hnodup
  · obtain ⟨b, hb, hbkeys, hbnodup⟩ := hd.exists_below hid
    rw [hb.descendants_eq_keys hbkeys hbnodup, hb.keys_eq_flatMap hbnodup, hbkeys]
  · rw [htree.forest_eq]
    exact htree.shows.unfolds

/-- Calls that link two new elements below each other, and then try to put one of them in. -/
def loopEdits : List Edit :=
  [.createElement "c" [], .createElement "d" [], .appendChild 2 3, .appendChild 3 2,
    .insertAfter 1 2]

theorem run_walks_loop :
    parse "<a x=\"1\"><b y=\"2\"/></a>" = .ok twoElements ∧
      Edit.Issued twoElements loopEdits ∧
      (Edit.run twoElements loopEdits).parent? 2 = some 3 ∧
      (Edit.run twoElements loopEdits).parent? 3 = some 2 ∧
      (Edit.run twoElements loopEdits).Visits [1] [1] ∧
      ¬ (Edit.run twoElements loopEdits).Attached 2 := by
  have hparse : parse "<a x=\"1\"><b y=\"2\"/></a>" = .ok twoElements := by decide +kernel
  have hids : Edit.Issued twoElements loopEdits := by decide +kernel
  have hchildren : (Edit.run twoElements loopEdits).children
      (Edit.run twoElements loopEdits).root = [1] := by decide +kernel
  have hdesc : (Edit.run twoElements loopEdits).descendants
      (Edit.run twoElements loopEdits).root = [1] := by decide +kernel
  have hroot : 2 ≠ (Edit.run twoElements loopEdits).root := by decide +kernel
  obtain ⟨hvisits, -, -, -, hmem, -, -⟩ := run_walks hparse hids rfl
  rw [hchildren, hdesc] at hvisits
  refine ⟨hparse, hids, by decide +kernel, by decide +kernel, hvisits, fun hatt => ?_⟩
  have hin := (hmem 2).2 ⟨hroot, hatt⟩
  rw [hdesc] at hin
  simp at hin

end Document

end SkillCompiler
