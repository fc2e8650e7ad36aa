import SkillCompiler.Proofs.Document.RoundTrip

/-!
# The contents of a document that was read

Whatever a token that was read puts into a document has what all such tokens have
(`contents_of_parse`), so a document that was read can be written if its names can
(`writable_of_parse`): the marks that end a section, a comment or the declaration do not occur in
them.
-/

namespace SkillCompiler

/-- What a token puts into the document. -/
def Token.content? : Token → Option Content
  | start tag as => some (.element tag as)
  | empty tag as => some (.element tag as)
  | text value => some (.text value)
  | cdata value => some (.cdata value)
  | comment value => some (.comment value)
  | _ => none

namespace Document

open Markup

namespace Builder

/-- All contents that a builder holds have a property, and so has the declaration. -/
structure All (P : Content → Prop) (Q : Declaration → Prop) (b : Builder) : Prop where
  declaration : ∀ d ∈ b.declaration, Q d
  root : ∀ c ∈ b.root.preorder, P c
  frames : ∀ f ∈ b.frames, ∀ c ∈ f.tree.preorder, P c

variable {P : Content → Prop} {Q : Declaration → Prop} {b b' : Builder}

theorem forall_mem_tree_append {frame : Frame} {t : Forest Content}
    (hframe : ∀ c ∈ frame.tree.preorder, P c) (ht : ∀ c ∈ t.preorder, P c) :
    ∀ c ∈ (frame.add t).tree.preorder, P c := by
  intro c hc
  simp only [Frame.tree, Frame.add, Forest.preorder_node, Forest.preorder_append,
    Forest.preorder_nil, List.append_nil, List.mem_cons, List.mem_append] at hframe hc
  rcases hc with hc | hc | hc
  · exact hframe c (Or.inl hc)
  · exact hframe c (Or.inr hc)
  · exact ht c hc

theorem All.add (h : b.All P Q) {t : Forest Content} (ht : ∀ c ∈ t.preorder, P c) :
    (b.add t).All P Q := by
  unfold Builder.add
  split
  · exact ⟨h.declaration, ht, h.frames⟩
  · rename_i frame frames hf
    refine ⟨h.declaration, h.root, fun f hm => ?_⟩
    rw [List.mem_cons] at hm
    rcases hm with rfl | hm
    · exact forall_mem_tree_append (h.frames frame (by simp [hf])) ht
    · exact h.frames f (by simp [hf, hm])

theorem All.addInside (h : b.All P Q) {t : Forest Content} (ht : ∀ c ∈ t.preorder, P c) :
    (b.addInside t).All P Q := by
  unfold Builder.addInside
  split
  · exact h
  · exact h.add ht

theorem forall_mem_leaf {c : Content} (h : P c) : ∀ x ∈ (Forest.leaf c).preorder, P x := by
  intro x hx
  simp only [Forest.leaf, Forest.preorder_node, Forest.preorder_nil, List.append_nil,
    List.mem_singleton] at hx
  exact hx ▸ h

theorem All.step (h : b.All P Q) {t : Token} (hc : ∀ c ∈ t.content?, P c)
    (hd : ∀ d, t = .declaration d → Q d) (hs : b.step t = .ok b') : b'.All P Q := by
  cases t with
  | declaration d =>
    cases hs
    refine ⟨fun e he => ?_, h.root, h.frames⟩
    cases he
    exact hd d rfl
  | start tag as =>
    rw [Builder.step] at hs
    obtain ⟨-, -, hs⟩ := exists_of_bind_eq_ok hs
    cases hs
    refine ⟨h.declaration, h.root, fun f hf => ?_⟩
    rw [List.mem_cons] at hf
    rcases hf with rfl | hf
    · exact forall_mem_leaf (hc _ rfl)
    · exact h.frames f hf
  | empty tag as =>
    rw [Builder.step] at hs
    obtain ⟨-, -, hs⟩ := exists_of_bind_eq_ok hs
    cases hs
    exact h.add (forall_mem_leaf (hc _ rfl))
  | close name =>
    rw [Builder.step] at hs
    split at hs
    · simp at hs
    · rename_i frame frames hf
      split at hs
      · cases hs
        have hrest : All P Q { b with frames := frames } :=
          ⟨h.declaration, h.root, fun f hm => h.frames f (by simp [hf, hm])⟩
        exact hrest.add (h.frames frame (by simp [hf]))
      · simp at hs
  | text value =>
    cases hs
    exact h.addInside (forall_mem_leaf (hc _ rfl))
  | cdata value =>
    cases hs
    exact h.addInside (forall_mem_leaf (hc _ rfl))
  | comment value =>
    cases hs
    exact h.addInside (forall_mem_leaf (hc _ rfl))
  | skipped =>
    cases hs
    exact h

theorem close_all (root : Forest Content) (frames : List Frame) (hroot : ∀ c ∈ root.preorder, P c)
    (hframes : ∀ f ∈ frames, ∀ c ∈ f.tree.preorder, P c) :
    ∀ c ∈ (Builder.close root frames).preorder, P c := by
  fun_induction Builder.close root frames with
  | case1 => exact hroot
  | case2 frame => exact hframes frame (by simp)
  | case3 frame outer frames ih =>
    refine ih fun f hm => ?_
    rw [List.mem_cons] at hm
    rcases hm with rfl | hm
    · exact forall_mem_tree_append (hframes outer (by simp)) (hframes frame (by simp))
    · exact hframes f (by simp [hm])

end Builder

/-- A document that was read holds what tokens that are read put into it. -/
theorem contents_of_parse {P : Content → Prop} {Q : Declaration → Prop}
    (hP : ∀ t, IsRead t → ∀ c ∈ t.content?, P c) (hQ : ∀ d, IsRead (.declaration d) → Q d)
    {source : String} {doc : Document} (h : parse source = .ok doc) :
    (∀ c ∈ doc.forest.preorder, P c) ∧ ∀ d ∈ doc.declaration, Q d := by
  obtain ⟨tokens, built, hread, hb, htree, rfl⟩ := exists_built_of_parse h
  have hall : built.All P Q := by
    refine foldlM_invariant (Builder.All P Q) (fun t ht b b' hs h => ?_)
      ⟨by simp, by simp, by simp⟩ hb
    exact h.step (hP t (hread.isRead t ht)) (fun d hd => hQ d (hd ▸ hread.isRead t ht)) hs
  rw [forest_ofForest _ htree]
  exact ⟨Builder.close_all _ _ hall.root hall.frames, hall.declaration⟩

/-- The names in a content are names that are read back. -/
def Named : Content → Prop
  | .element tag as => IsName tag ∧ ∀ a ∈ as, IsName a.name
  | _ => True

instance : DecidablePred Named
  | .element _ _ => inferInstanceAs (Decidable (_ ∧ _))
  | .text _ => inferInstanceAs (Decidable True)
  | .cdata _ => inferInstanceAs (Decidable True)
  | .comment _ => inferInstanceAs (Decidable True)

/-- A document that was read can be written if its names can and no value of its declaration holds a
quote. -/
theorem writable_of_parse {source : String} {doc : Document} (h : parse source = .ok doc)
    (hnames : ∀ c ∈ doc.forest.preorder, Named c)
    (hquotes : ∀ d ∈ doc.declaration, ∀ p ∈ parts d, '"' ∉ p.2.toList) :
    (∀ c ∈ doc.forest.preorder, Writable c) ∧
      ∀ d ∈ doc.declaration, ∀ p ∈ parts d, WritableValue p.2 := by
  have hread := contents_of_parse (P := fun c => Named c → Writable c)
    (Q := fun d => ∀ p ∈ parts d, ¬ "?>".toList <:+: p.2.toList) (fun t ht c hc => ?_)
    (fun d hd => ?_) h
  · refine ⟨fun c hc => hread.1 c hc (hnames c hc), fun d hd p hp => ?_⟩
    exact ⟨hquotes d hd p hp, hread.2 d hd p hp⟩
  · intro hname
    cases ht with
    | start tag hd => cases hc; exact ⟨hname.1, hname.2, hd⟩
    | empty tag hd => cases hc; exact ⟨hname.1, hname.2, hd⟩
    | text value => cases hc; trivial
    | cdata hv => cases hc; exact hv
    | comment hv => cases hc; exact hv
    | _ => cases hc
  · generalize ht : Token.declaration d = t at hd
    cases hd with
    | declaration hcontent =>
      cases ht
      exact not_infix_parts hcontent (by decide)
    | _ => cases ht

end Document

end SkillCompiler
