import SkillCompiler.Proofs.Document.Tree

/-!
# Sweeps over a document

A sweep collects the elements with a tag and then edits them one by one, in document order. By the
time an element is reached, an edit before it may have moved it out of the tree, together with what
it is below. `pending` is the forest that is still to come while some elements wait, and an edit
leaves it as it is. So a sweep rewrites the tree from the leaves up (`Sweeps.foldlM`).
-/

namespace SkillCompiler

namespace Forest

variable {κ α : Type} [DecidableEq κ]

/-- What becomes of a forest when the nodes in `todo` have been rewritten by `g`. -/
def pending (g : α → Forest α → Forest α) (todo : List κ) : Forest (κ × α) → Forest α
  | nil => nil
  | node p below after =>
    if p.1 ∈ todo then g p.2 (pending g todo below) ++ pending g todo after
    else node p.2 (pending g todo below) (pending g todo after)

variable {g : α → Forest α → Forest α}

theorem pending_nil : ∀ t : Forest (κ × α), pending g [] t = t.map Prod.snd
  | nil => rfl
  | node p b c => by simp [pending, pending_nil b, pending_nil c]

theorem pending_append {todo : List κ} :
    ∀ s t : Forest (κ × α), pending g todo (s ++ t) = pending g todo s ++ pending g todo t
  | nil, t => rfl
  | node p b c, t => by
    rw [node_append, pending, pending, pending_append c t]
    split
    · rw [append_assoc]
    · rw [node_append]

theorem pending_cons_of_notMem {k : κ} {todo : List κ} :
    ∀ {t : Forest (κ × α)}, k ∉ t.keys → pending g (k :: todo) t = pending g todo t
  | nil, _ => rfl
  | node p b c, hk => by
    simp only [keys_node, List.mem_cons, List.mem_append, not_or] at hk
    simp only [pending, List.mem_cons, Ne.symm hk.1, false_or, pending_cons_of_notMem hk.2.1,
      pending_cons_of_notMem hk.2.2]

/-- A node that has been rewritten does not wait any more. -/
theorem pending_rewriteAt {k : κ} {a : α} {todo : List κ}
    {h : α → Forest (κ × α) → Forest (κ × α)}
    (hg : ∀ b, pending g todo (h a b) = g a (pending g todo b)) (hk : k ∉ todo) :
    ∀ {t : Forest (κ × α)}, t.keys.Nodup → (∀ p ∈ t.preorder, p.1 = k → p.2 = a) →
      pending g todo (t.rewriteAt k h) = pending g (k :: todo) t
  | nil, _, _ => rfl
  | node p b c, ht, ha => by
    simp only [keys_node, List.nodup_cons, List.nodup_append, List.mem_append, not_or] at ht
    obtain ⟨⟨hpb, hpc⟩, hb, hc, -⟩ := ht
    simp only [preorder_node, List.mem_cons, List.mem_append] at ha
    have ihc := pending_rewriteAt hg hk hc fun q hq => ha q (Or.inr (Or.inr hq))
    by_cases hp : p.1 = k
    · have hb' : pending g (k :: todo) b = pending g todo b := pending_cons_of_notMem (hp ▸ hpb)
      rw [rewriteAt, if_pos hp, pending_append, ihc, ha p (Or.inl rfl) hp, hg, pending,
        if_pos (by simp [hp]), ha p (Or.inl rfl) hp, hb']
    · have ihb := pending_rewriteAt hg hk hb fun q hq => ha q (Or.inr (Or.inl hq))
      simp only [rewriteAt_node_ne hp, pending, List.mem_cons, hp, false_or, ihb, ihc]

/-- A change of all labels may be made before or after the rewriting. -/
theorem pending_relabel {f : α → α} {todo : List κ}
    (hg : ∀ a b, (g a b).map f = g (f a) (b.map f)) :
    ∀ t : Forest (κ × α), pending g todo (t.relabel fun _ => f) = (pending g todo t).map f
  | nil => rfl
  | node p b c => by
    rw [relabel_node, pending, pending, pending_relabel hg b, pending_relabel hg c]
    split
    · rw [map_append, hg]
    · rw [map_node]

/-- While all nodes with some labels wait, they are still to be rewritten. -/
theorem pending_eq_rewriteWhere {p : α → Bool} {todo : List κ} :
    ∀ {t : Forest (κ × α)}, (∀ q ∈ t.preorder, q.1 ∈ todo ↔ p q.2) →
      pending g todo t = (t.map Prod.snd).rewriteWhere p g
  | nil, _ => rfl
  | node q b c, h => by
    simp only [preorder_node, List.mem_cons, List.mem_append] at h
    have ihb := pending_eq_rewriteWhere (t := b) fun r hr => h r (Or.inr (Or.inl hr))
    have ihc := pending_eq_rewriteWhere (t := c) fun r hr => h r (Or.inr (Or.inr hr))
    simp only [pending, map_node, rewriteWhere, h q (Or.inl rfl), ihb, ihc]

end Forest

namespace Document

/-- A document as a root and what is below it. -/
def Holds (doc : Document) (content : Content) (below : Forest Content) : Prop :=
  ∃ t : NodeForest, doc.HasTree (.node (doc.root, content) t .nil) ∧ t.map Prod.snd = below

theorem Holds.forest_eq {doc : Document} {content : Content} {below : Forest Content}
    (h : doc.Holds content below) : doc.forest = .node content below .nil := by
  obtain ⟨t, ht, rfl⟩ := h
  exact ht.forest_eq

/-- An element that waits for its edit. It may have left the tree, unless the sweep keeps all nodes
in it. -/
structure Awaits (doc : Document) (t : NodeForest) (tag : String) (stays : Prop) (id : NodeId) :
    Prop where
  tag? : doc.tag? id = some tag
  parent? : (doc.parent? id).isSome
  mem : stays → id ∈ t.keys

/-- An edit that rewrites the element it is made at by `g`, as far as the tree can show. -/
structure Sweeps {ε : Type} (tag : String) (stays : Prop)
    (g : Content → Forest Content → Forest Content)
    (edit : Document → NodeId → Except ε Document) : Prop where
  step : ∀ {doc : Document} {t : NodeForest} {id : NodeId} {content : Content} {todo : List NodeId},
    doc.HasTree t → doc.content? id = some content → doc.Awaits t tag stays id → id ∉ todo →
    (∀ j ∈ todo, doc.Awaits t tag stays j) →
    ∃ doc' h, edit doc id = .ok doc' ∧ doc'.HasTree (t.rewriteAt id h) ∧
      (∀ j ∈ todo, doc'.Awaits (t.rewriteAt id h) tag stays j) ∧
      ∀ b, Forest.pending g todo (h content b) = g content (Forest.pending g todo b)

namespace Sweeps

variable {ε : Type} {tag : String} {stays : Prop} {g : Content → Forest Content → Forest Content}
  {edit : Document → NodeId → Except ε Document}

theorem foldlM_todo (hs : Sweeps tag stays g edit) (content : Content) :
    ∀ {todo : List NodeId} {doc : Document} {t : NodeForest}, todo.Nodup →
      doc.HasTree (.node (doc.root, content) t .nil) →
      (∀ j ∈ todo, doc.Awaits (.node (doc.root, content) t .nil) tag stays j) →
      ∃ doc', todo.foldlM edit doc = .ok doc' ∧ doc'.root = doc.root ∧
        doc'.Holds content (Forest.pending g todo t)
  | [], doc, t, _, ht, _ => ⟨doc, rfl, rfl, t, ht, (Forest.pending_nil t).symm⟩
  | id :: todo, doc, t, hn, ht, ha => by
    obtain ⟨hid, hn⟩ := List.nodup_cons.1 hn
    have hai := ha id (List.mem_cons_self ..)
    obtain ⟨as, hc⟩ := exists_attributes_of_tag? hai.tag?
    obtain ⟨doc₁, h, he, ht₁, ha₁, hg⟩ := hs.step ht hc hai hid fun j hj =>
      ha j (List.mem_cons_of_mem _ hj)
    have hr := ht.root_eq ht₁ hai.parent?
    have hroot : doc.root ≠ id := fun hd => by
      have hp := hai.parent?
      rw [← hd, ht.linked.root_parent] at hp
      simp at hp
    have htree : Forest.rewriteAt id h (.node (doc.root, content) t .nil) =
        .node (doc₁.root, content) (t.rewriteAt id h) .nil := by
      rw [Forest.rewriteAt_node_ne hroot, hr, Forest.rewriteAt_nil]
    rw [htree] at ht₁ ha₁
    obtain ⟨doc₂, he₂, hr₂, hh⟩ := foldlM_todo hs content hn ht₁ ha₁
    refine ⟨doc₂, ?_, hr₂.trans hr, ?_⟩
    · rw [List.foldlM_cons, he]
      exact he₂
    · have hnd := ht.nodup
      simp only [Forest.keys_node, Forest.keys_nil, List.append_nil, List.nodup_cons] at hnd
      have hlabel : ∀ p ∈ t.preorder, p.1 = id → p.2 = .element tag as := by
        rintro p hp rfl
        have hcp := ht.shows.2.1.content? hp
        rw [hc, Option.some.injEq] at hcp
        exact hcp.symm
      rwa [Forest.pending_rewriteAt hg hid hnd.2 hlabel] at hh

/-- A sweep rewrites all elements with the tag, from the leaves up. -/
theorem foldlM (hs : Sweeps tag stays g edit) {doc : Document} {content : Content}
    {below : Forest Content} (hd : doc.Holds content below) :
    ∃ doc', (doc.withTag doc.root tag).foldlM edit doc = .ok doc' ∧ doc'.root = doc.root ∧
      doc'.Holds content (below.rewriteWhere (fun c => c.tag? = some tag) g) := by
  obtain ⟨t, ht, rfl⟩ := hd
  have hids := ht.withTag rfl tag
  have hn := ht.nodup
  simp only [Forest.keys_node, Forest.keys_nil, List.append_nil, List.nodup_cons] at hn
  have hawait : ∀ j ∈ t.keys.filter (doc.hasTag · tag),
      doc.Awaits (.node (doc.root, content) t .nil) tag stays j := by
    intro j hj
    obtain ⟨hjt, htag⟩ := List.mem_filter.1 hj
    refine ⟨by simpa [hasTag] using htag, ?_, fun _ => by simp [hjt]⟩
    rcases Shows.parent?_isSome ht.shows.2.1 hjt with hp | hp
    · rw [hp]
      rfl
    · exact hp
  obtain ⟨doc', he, hr, hh⟩ := hs.foldlM_todo content (hn.2.filter _) ht hawait
  rw [← hids] at he
  refine ⟨doc', he, hr, ?_⟩
  rwa [Forest.pending_eq_rewriteWhere] at hh
  intro q hq
  have hc := ht.shows.2.1.content? hq
  have hk : q.1 ∈ t.keys := List.mem_map.2 ⟨q, hq, rfl⟩
  simp [List.mem_filter, hk, hasTag, Document.tag?, hc]

end Sweeps

end Document

end SkillCompiler
