import SkillCompiler.Proofs.Document.Arena
import SkillCompiler.Proofs.Document.Tree
import SkillCompiler.Proofs.Log
import SkillCompiler.Proofs.Markup.Read

/-!
# The tree of a document that was read

Reading gives a single element tree, laid out in document order (`exists_ofForest_of_parse`). It is
regular: no element has two attributes with one name, and only elements have anything below them.
The document has that tree (`hasTree_ofForest`).
-/

namespace SkillCompiler

/-- The attributes of a tag that opens an element. -/
def Token.attributes : Token → List Attribute
  | start _ as => as
  | empty _ as => as
  | _ => []

theorem Markup.IsRead.distinct {t : Token} (h : IsRead t) : Distinct t.attributes := by
  cases h with
  | start tag h => exact h
  | empty tag h => exact h
  | _ => exact distinct_nil

namespace Document

/-! ## Regular forests -/

/-- Every element has distinct attribute names and nothing else has anything below it. -/
def Regular : Forest Content → Prop
  | .nil => True
  | .node content below after =>
    Distinct content.attributes ∧ (content.tag? = none → below = .nil) ∧ Regular below ∧
      Regular after

theorem regular_append : ∀ {s t : Forest Content}, Regular (s ++ t) ↔ Regular s ∧ Regular t
  | .nil, t => by simp [Regular]
  | .node a b c, t => by simp [Regular, regular_append (s := c), and_assoc]

/-- A single regular tree at an element. -/
def IsElementTree (t : Forest Content) : Prop :=
  ∃ tag as below, t = .node (.element tag as) below .nil ∧ Regular t

theorem regular_leaf {c : Content} (h : Distinct c.attributes) : Regular (.leaf c) :=
  ⟨h, fun _ => rfl, trivial, trivial⟩

/-- What a builder holds is regular. -/
structure Builder.Sound (b : Builder) : Prop where
  root : b.root = .nil ∨ IsElementTree b.root
  frames : ∀ f ∈ b.frames, Distinct f.attributes ∧ Regular f.inside

theorem Frame.isElementTree {f : Frame} (h : Distinct f.attributes ∧ Regular f.inside) :
    IsElementTree f.tree :=
  ⟨f.tag, f.attributes, f.inside, rfl, h.1, by simp [Content.tag?], h.2, trivial⟩

theorem Builder.Sound.add {b : Builder} (h : b.Sound) {t : Forest Content} (ht : Regular t)
    (hroot : b.frames = [] → IsElementTree t) : (b.add t).Sound := by
  unfold Builder.add
  split
  · rename_i hf
    exact ⟨Or.inr (hroot hf), h.frames⟩
  · rename_i frame frames hf
    refine ⟨h.root, fun f hm => ?_⟩
    have hframe := h.frames frame (by simp [hf])
    simp only [List.mem_cons] at hm
    rcases hm with rfl | hm
    · exact ⟨hframe.1, regular_append.2 ⟨hframe.2, ht⟩⟩
    · exact h.frames f (by simp [hf, hm])

theorem Builder.Sound.addInside {b : Builder} (h : b.Sound) {t : Forest Content} (ht : Regular t) :
    (b.addInside t).Sound := by
  unfold Builder.addInside
  split
  · exact h
  · rename_i hf
    exact h.add ht fun he => by simp [he] at hf

theorem IsElementTree.regular {t : Forest Content} (h : IsElementTree t) : Regular t := by
  obtain ⟨_, _, _, _, hr⟩ := h
  exact hr

theorem Builder.Sound.step {b b' : Builder} (h : b.Sound) {t : Token} (ht : Distinct t.attributes)
    (hs : b.step t = .ok b') : b'.Sound := by
  cases t with
  | declaration d =>
    simp only [Builder.step, Except.ok.injEq] at hs
    exact hs ▸ ⟨h.root, h.frames⟩
  | start tag as =>
    rcases hr : b.requireRoom tag with e | u <;>
      simp only [Builder.step, hr, bind, Except.bind, pure, Except.pure, Except.ok.injEq,
        reduceCtorEq] at hs
    refine hs ▸ ⟨h.root, fun f hf => ?_⟩
    simp only [List.mem_cons] at hf
    rcases hf with rfl | hf
    · exact ⟨ht, trivial⟩
    · exact h.frames f hf
  | empty tag as =>
    rcases hr : b.requireRoom tag with e | u <;>
      simp only [Builder.step, hr, bind, Except.bind, pure, Except.pure, Except.ok.injEq,
        reduceCtorEq] at hs
    have hleaf : Regular (.leaf (.element tag as)) := regular_leaf ht
    exact hs ▸ h.add hleaf fun _ => ⟨tag, as, .nil, rfl, hleaf⟩
  | close name =>
    simp only [Builder.step] at hs
    split at hs
    · simp at hs
    · rename_i frame frames hf
      split at hs
      · simp only [Except.ok.injEq] at hs
        have htree := Frame.isElementTree (h.frames frame (by simp [hf]))
        have hrest : Builder.Sound { b with frames := frames } :=
          ⟨h.root, fun f hm => h.frames f (by simp [hf, hm])⟩
        exact hs ▸ hrest.add htree.regular fun _ => htree
      · simp at hs
  | text value =>
    simp only [Builder.step, Except.ok.injEq] at hs
    exact hs ▸ h.addInside (regular_leaf Markup.distinct_nil)
  | cdata value =>
    simp only [Builder.step, Except.ok.injEq] at hs
    exact hs ▸ h.addInside (regular_leaf Markup.distinct_nil)
  | comment value =>
    simp only [Builder.step, Except.ok.injEq] at hs
    exact hs ▸ h.addInside (regular_leaf Markup.distinct_nil)
  | skipped =>
    simp only [Builder.step, Except.ok.injEq] at hs
    exact hs ▸ h

theorem Builder.close_sound (root : Forest Content) (frames : List Frame)
    (hroot : root = .nil ∨ IsElementTree root)
    (hf : ∀ f ∈ frames, Distinct f.attributes ∧ Regular f.inside) :
    Builder.close root frames = .nil ∨ IsElementTree (Builder.close root frames) := by
  fun_induction Builder.close root frames with
  | case1 => exact hroot
  | case2 frame => exact Or.inr (Frame.isElementTree (hf frame (by simp)))
  | case3 frame outer frames ih =>
    refine ih fun f hm => ?_
    have hframe := Frame.isElementTree (hf frame (by simp))
    have houter := hf outer (by simp)
    simp only [List.mem_cons] at hm
    rcases hm with rfl | hm
    · exact ⟨houter.1, regular_append.2 ⟨houter.2, hframe.regular⟩⟩
    · exact hf f (by simp [hm])

/-- Where a token was read only matters for the error that it makes. -/
theorem foldlM_lexemes (position : List Char → Nat) {b' : Builder} :
    ∀ {lexemes : List Markup.Lexeme} {b : Builder},
      lexemes.foldlM (Builder.take position) b = .ok b' ↔
        (lexemes.map Markup.Lexeme.token).foldlM Builder.step b = .ok b'
  | [], b => by
    constructor <;> intro h <;> cases h <;> rfl
  | lexeme :: lexemes, b => by
    rw [List.map_cons, List.foldlM_cons, List.foldlM_cons, Builder.take]
    cases hs : b.step lexeme.token with
    | error m => constructor <;> intro h <;> cases h
    | ok b₁ => exact foldlM_lexemes position (b := b₁)

/-- A tree is read if the text is read to its end, the tokens can be put together, and there is a
root. -/
theorem readTree_eq_ok_iff {source : String} {declaration : Option Declaration}
    {tree : Forest Content} :
    readTree source = .ok (declaration, tree) ↔
      ∃ (tokens : List Token) (built : Builder), Markup.Reads (unmarked source) tokens ∧
        tokens.foldlM Builder.step {} = .ok built ∧
        tree ≠ .nil ∧ tree = Builder.close built.root built.frames ∧
        declaration = built.declaration := by
  constructor
  · intro h
    unfold readTree at h
    obtain ⟨built, hb, h⟩ := exists_of_bind_eq_ok h
    have hb := (foldlM_lexemes _).1 hb
    split at h
    · cases h
    rename_i hfault
    unfold Builder.tree at h
    split at h
    · cases h
    · rename_i hne
      cases h
      exact ⟨_, built, ⟨hfault, rfl⟩, hb, hne, rfl, rfl⟩
  · rintro ⟨tokens, built, ⟨hfault, rfl⟩, hb, hne, rfl, rfl⟩
    have hb := (foldlM_lexemes fun rest =>
      Text.width (unmarked source) - Text.width rest).2 hb
    unfold readTree
    refine (bind_eq_of_ok hb).trans ?_
    rw [hfault, Builder.tree]
    cases hr : Builder.close built.root built.frames with
    | nil => exact absurd hr hne
    | node c below after => rfl

/-- A document is read if the text is read to its end, the tokens can be put together, and there is
a root. -/
theorem parse_eq_ok_iff_built {source : String} {doc : Document} :
    parse source = .ok doc ↔
      ∃ (tokens : List Token) (built : Builder), Markup.Reads (unmarked source) tokens ∧
        tokens.foldlM Builder.step {} = .ok built ∧
        Builder.close built.root built.frames ≠ .nil ∧
        doc = ofForest built.declaration (Builder.close built.root built.frames) := by
  rw [parse_eq_readTree]
  constructor
  · intro h
    rcases hread : readTree source with e | ⟨declaration, tree⟩
    · rw [hread] at h
      cases h
    · rw [hread] at h
      cases h
      obtain ⟨tokens, built, hreads, hb, hne, rfl, rfl⟩ := readTree_eq_ok_iff.1 hread
      exact ⟨tokens, built, hreads, hb, hne, rfl⟩
  · rintro ⟨tokens, built, hreads, hb, hne, rfl⟩
    rw [readTree_eq_ok_iff.2 ⟨tokens, built, hreads, hb, hne, rfl, rfl⟩]
    rfl

/-- A document is a tree that is built from tokens that were read. -/
theorem exists_built_of_parse {source : String} {doc : Document} (h : parse source = .ok doc) :
    ∃ (tokens : List Token) (built : Builder), Markup.Reads (unmarked source) tokens ∧
      tokens.foldlM Builder.step {} = .ok built ∧
      IsElementTree (Builder.close built.root built.frames) ∧
      doc = ofForest built.declaration (Builder.close built.root built.frames) := by
  obtain ⟨tokens, built, hread, hb, hne, hdoc⟩ := parse_eq_ok_iff_built.1 h
  have hsound : built.Sound := by
    refine foldlM_invariant Builder.Sound (fun t ht b b' hs h => ?_) ⟨Or.inl rfl, by simp⟩ hb
    exact h.step (hread.isRead t ht).distinct hs
  have hclose := Builder.close_sound built.root built.frames hsound.root hsound.frames
  exact ⟨tokens, built, hread, hb, hclose.resolve_left hne, hdoc⟩

/-- What is read is a single regular tree at an element, laid out in document order. -/
theorem exists_ofForest_of_parse {source : String} {doc : Document} (h : parse source = .ok doc) :
    ∃ declaration t, IsElementTree t ∧ doc = ofForest declaration t := by
  obtain ⟨tokens, built, -, -, htree, hdoc⟩ := exists_built_of_parse h
  exact ⟨built.declaration, _, htree, hdoc⟩

/-! ## Laying out a forest -/

/-- A forest with the places that its nodes have when it is laid out from `next` on. -/
def number (next : NodeId) : Forest Content → NodeForest
  | .nil => .nil
  | .node content below after =>
    .node (next, content) (number (next + 1) below) (number (next + 1 + below.size) after)

theorem map_snd_number : ∀ (t : Forest Content) (next : NodeId),
    (number next t).map Prod.snd = t
  | .nil, _ => rfl
  | .node c b a, next => by
    simp [number, map_snd_number b, map_snd_number a]

theorem rootKeys_number : ∀ (t : Forest Content) (next : NodeId),
    (number next t).rootKeys = rootIds next t
  | .nil, _ => rfl
  | .node c b a, next => by
    simp [number, rootIds, rootKeys_number a]

theorem keys_number : ∀ (t : Forest Content) (next : NodeId),
    (number next t).keys = List.range' next t.size
  | .nil, _ => rfl
  | .node c b a, next => by
    rw [number, Forest.keys_node, keys_number b, keys_number a, Forest.size_node,
      show b.size + 1 + a.size = (b.size + a.size) + 1 by omega, List.range'_succ,
      ← List.range'_append_1]

/-- A forest that is laid out somewhere in the table is shown there. -/
theorem shows_number (doc : Document) :
    ∀ (t : Forest Content) (parent : Option NodeId) (before rest : List Node),
      doc.nodes.toList = before ++ (layOut parent before.length t ++ rest) →
        doc.Shows parent (number before.length t)
  | .nil, _, _, _, _ => trivial
  | .node c b a, parent, before, rest, h => by
    refine ⟨?_, ?_, ?_⟩
    · have hg : doc.nodes.toList[before.length]? =
          some ⟨c, parent, rootIds (before.length + 1) b⟩ := by
        rw [h, List.getElem?_append_right (Nat.le_refl _), Nat.sub_self, layOut, List.cons_append,
          List.getElem?_cons_zero]
      rw [rootKeys_number, node?, ← Array.getElem?_toList, hg]
    · have hb := shows_number doc b (some before.length)
        (before ++ [⟨c, parent, rootIds (before.length + 1) b⟩])
        (layOut parent (before.length + 1 + b.size) a ++ rest)
      rw [List.length_append, List.length_singleton] at hb
      exact hb (by rw [h]; simp [layOut])
    · have ha := shows_number doc a parent
        (before ++ ⟨c, parent, rootIds (before.length + 1) b⟩ ::
          layOut (some before.length) (before.length + 1) b) rest
      rw [List.length_append, List.length_cons, length_layOut,
        show before.length + (b.size + 1) = before.length + 1 + b.size by omega] at ha
      exact ha (by rw [h]; simp [layOut])

/-! ## The links of a shown forest -/

section Links

variable {doc : Document}

theorem Shows.parent?_of_mem_rootKeys {c : NodeId} :
    ∀ {q : Option NodeId} {t : NodeForest}, doc.Shows q t → c ∈ t.rootKeys → doc.parent? c = q
  | _, .nil, _, hc => by simp at hc
  | q, .node p b a, h, hc => by
    obtain ⟨hn, -, ha⟩ := h
    simp only [Forest.rootKeys_node, List.mem_cons] at hc
    rcases hc with rfl | hc
    · exact parent?_of_node? hn
    · exact Shows.parent?_of_mem_rootKeys ha hc

theorem Shows.parent?_of_mem_children {p c : NodeId} :
    ∀ {q : Option NodeId} {t : NodeForest}, doc.Shows q t → p ∈ t.keys → c ∈ doc.children p →
      doc.parent? c = some p
  | _, .nil, _, hp, _ => by simp at hp
  | q, .node r b a, h, hp, hc => by
    obtain ⟨hn, hb, ha⟩ := h
    simp only [Forest.keys_node, List.mem_cons, List.mem_append] at hp
    rcases hp with rfl | hp | hp
    · rw [children_of_node? hn] at hc
      exact hb.parent?_of_mem_rootKeys hc
    · exact Shows.parent?_of_mem_children hb hp hc
    · exact Shows.parent?_of_mem_children ha hp hc

theorem Shows.mem_children_of_parent? {p c : NodeId} (hp : doc.parent? c = some p) :
    ∀ {q : Option NodeId} {t : NodeForest}, doc.Shows q t → c ∈ t.keys →
      c ∈ t.rootKeys ∨ c ∈ doc.children p
  | _, .nil, _, hc => by simp at hc
  | q, .node r b a, h, hc => by
    obtain ⟨hn, hb, ha⟩ := h
    simp only [Forest.keys_node, List.mem_cons, List.mem_append] at hc
    simp only [Forest.rootKeys_node, List.mem_cons]
    rcases hc with rfl | hc | hc
    · exact Or.inl (Or.inl rfl)
    · rcases Shows.mem_children_of_parent? hp hb hc with hr | hr
      · have hpr : some r.1 = some p := (hb.parent?_of_mem_rootKeys hr).symm.trans hp
        rw [Option.some.injEq] at hpr
        exact Or.inr (by rw [← hpr, children_of_node? hn]; exact hr)
      · exact Or.inr hr
    · rcases Shows.mem_children_of_parent? hp ha hc with hr | hr
      · exact Or.inl (Or.inr hr)
      · exact Or.inr hr

theorem nodup_rootKeys : ∀ {t : NodeForest}, t.keys.Nodup → t.rootKeys.Nodup
  | .nil, _ => by simp
  | .node p b a, h => by
    simp only [Forest.keys_node, List.nodup_cons, List.nodup_append, List.mem_append, not_or] at h
    obtain ⟨⟨-, hpa⟩, -, ha, -⟩ := h
    rw [Forest.rootKeys_node, List.nodup_cons]
    exact ⟨fun hm => hpa (Forest.mem_keys_of_mem_rootKeys hm), nodup_rootKeys ha⟩

theorem Shows.nodup_children {p : NodeId} :
    ∀ {q : Option NodeId} {t : NodeForest}, doc.Shows q t → t.keys.Nodup → p ∈ t.keys →
      (doc.children p).Nodup
  | _, .nil, _, _, hp => by simp at hp
  | q, .node r b a, h, hnd, hp => by
    obtain ⟨hn, hb, ha⟩ := h
    simp only [Forest.keys_node, List.nodup_cons, List.nodup_append] at hnd
    obtain ⟨-, hbn, han, -⟩ := hnd
    simp only [Forest.keys_node, List.mem_cons, List.mem_append] at hp
    rcases hp with rfl | hp | hp
    · rw [children_of_node? hn]
      exact nodup_rootKeys hbn
    · exact Shows.nodup_children hb hbn hp
    · exact Shows.nodup_children ha han hp

theorem Shows.isElement {p : NodeId} (hp : doc.children p ≠ []) :
    ∀ {q : Option NodeId} {t : NodeForest}, doc.Shows q t → Regular (t.map Prod.snd) →
      p ∈ t.keys → (doc.tag? p).isSome
  | _, .nil, _, _, hm => by simp at hm
  | q, .node r b a, h, hr, hm => by
    obtain ⟨hn, hb, ha⟩ := h
    obtain ⟨-, hleaf, hrb, hra⟩ := hr
    simp only [Forest.keys_node, List.mem_cons, List.mem_append] at hm
    rcases hm with rfl | hm | hm
    · rw [tag?, content?_of_node? hn, Option.bind_some, Option.isSome_iff_ne_none]
      intro ht
      have hnil := hleaf ht
      cases b with
      | nil => exact hp (by rw [children_of_node? hn, Forest.rootKeys_nil])
      | node s x y => simp at hnil
    · exact Shows.isElement hp hb hrb hm
    · exact Shows.isElement hp ha hra hm

end Links

/-- A laid out tree is the tree of the document. -/
theorem hasTree_ofForest (declaration : Option Declaration) {t : Forest Content}
    (h : IsElementTree t) : (ofForest declaration t).HasTree (number 0 t) := by
  have hreg := h.regular
  have hsize : (ofForest declaration t).size = t.size := by
    simp [ofForest, size, length_layOut]
  have hshows : (ofForest declaration t).Shows none (number 0 t) :=
    shows_number _ t none [] [] (by simp [ofForest])
  have hnodup : (number 0 t).keys.Nodup := by
    rw [keys_number]
    exact List.nodup_range'
  have hkeys : ∀ {j n}, (ofForest declaration t).node? j = some n → j ∈ (number 0 t).keys := by
    intro j n hj
    have hlt := lt_size_of_node? hj
    rw [hsize] at hlt
    simpa [keys_number] using hlt
  have hchild : ∀ {j}, (ofForest declaration t).children j ≠ [] → j ∈ (number 0 t).keys := by
    intro j hj
    cases hn : (ofForest declaration t).node? j with
    | none => simp [children, hn] at hj
    | some n => exact hkeys hn
  obtain ⟨tag, as, below, rfl, -⟩ := h
  have hroot : (ofForest declaration (.node (.element tag as) below .nil)).parent? 0 = none :=
    parent?_of_node? hshows.1
  refine ⟨⟨fun p c => ⟨fun hc => ?_, fun hp => ?_⟩, fun p => ?_, ?_, hroot, fun p hp => ?_⟩, hshows,
    hnodup, ⟨_, _, rfl⟩⟩
  · exact hshows.parent?_of_mem_children (hchild (List.ne_nil_of_mem hc)) hc
  · obtain ⟨n, hn, -⟩ := exists_node?_of_parent? hp
    rcases hshows.mem_children_of_parent? hp (hkeys hn) with hr | hr
    · have hnone := hshows.parent?_of_mem_rootKeys hr
      simp [hp] at hnone
    · exact hr
  · by_cases hp : (ofForest declaration (.node (.element tag as) below .nil)).children p = []
    · rw [hp]
      exact List.nodup_nil
    · exact hshows.nodup_children hnodup (hchild hp)
  · rw [hsize, Forest.size_node]
    exact Nat.lt_add_right _ (Nat.succ_pos _)
  · exact hshows.isElement hp (by rw [map_snd_number]; exact hreg) (hchild hp)

end Document

end SkillCompiler
