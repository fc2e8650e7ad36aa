import SkillCompiler.Proofs.Document.Attributes

/-!
# Documents that are edited

After a document has been read, its nodes are edited by any sequence of calls, and some of the calls
may be refused (`Edit.run`). The calls may link a detached node below itself, so what holds of every
edited document is not that it is a tree, but that parents and children agree, that all nodes named
in the table are in it, and that no element has two attributes with one name (`WellFormed`). One
call keeps this (`WellFormed.apply`), and so does a run.
-/

namespace SkillCompiler

namespace Document

/-- A call of an operation that edits a document. -/
inductive Edit where
  | createElement (tag : String) (attributes : List Attribute)
  | appendChild (parent child : NodeId)
  | insertAfter (reference new : NodeId)
  | detach (id : NodeId)
  | setTag (id : NodeId) (tag : String)
  | setAttribute (id : NodeId) (name value : String)
  | removeAttribute (id : NodeId) (name : String)
  | renameAttribute (id : NodeId) (old new : String)
  deriving DecidableEq, Repr

namespace Edit

/-- The nodes that a call names. -/
def ids : Edit → List NodeId
  | createElement .. => []
  | appendChild parent child => [parent, child]
  | insertAfter reference new => [reference, new]
  | detach id => [id]
  | setTag id _ => [id]
  | setAttribute id .. => [id]
  | removeAttribute id _ => [id]
  | renameAttribute id .. => [id]

/-- The attributes that a call brings. -/
def attributes : Edit → List Attribute
  | createElement _ as => as
  | _ => []

/-- The document that a call leaves, whatever it answers. -/
def apply (doc : Document) : Edit → Document
  | createElement tag as => (doc.createElement tag as).1
  | appendChild parent child => (doc.appendChild parent child).2
  | insertAfter reference new => (doc.insertAfter reference new).2
  | detach id => (doc.detach id).2
  | setTag id tag => (doc.setTag id tag).2
  | setAttribute id name value => (doc.setAttribute id name value).2
  | removeAttribute id name => (doc.removeAttribute id name).2
  | renameAttribute id old new => (doc.renameAttribute id old new).2

/-- The document after calls, one after another. -/
def run (doc : Document) (edits : List Edit) : Document := edits.foldl apply doc

/-- Every call names nodes that the document has when the call is made. -/
def Issued : Document → List Edit → Prop
  | _, [] => True
  | doc, e :: edits => (∀ id ∈ e.ids, id < doc.size) ∧ Issued (e.apply doc) edits

instance decidableIssued : ∀ (doc : Document) (edits : List Edit), Decidable (Issued doc edits)
  | _, [] => isTrue trivial
  | doc, e :: edits =>
    have := decidableIssued (e.apply doc) edits
    inferInstanceAs (Decidable ((∀ id ∈ e.ids, id < doc.size) ∧ Issued (e.apply doc) edits))

end Edit

/-- The links agree, all nodes named in the table are in it, and attribute names are distinct. -/
structure WellFormed (doc : Document) : Prop extends Linked doc where
  inRange : ∀ n ∈ doc.nodes, (∀ p ∈ n.parent, p < doc.size) ∧ ∀ c ∈ n.children, c < doc.size
  distinct : ∀ id, Distinct (doc.attributes id)

/-! ## The nodes named in a linked document -/

section Linked

variable {doc : Document}

theorem lt_size_of_parent? {c p : NodeId} (h : doc.parent? c = some p) : c < doc.size := by
  obtain ⟨n, hn, -⟩ := exists_node?_of_parent? h
  exact lt_size_of_node? hn

theorem lt_size_of_mem_children {c p : NodeId} (h : c ∈ doc.children p) : p < doc.size := by
  cases hn : doc.node? p with
  | none => simp [children, hn] at h
  | some n => exact lt_size_of_node? hn

theorem lt_size_of_tag? {p : NodeId} (h : (doc.tag? p).isSome) : p < doc.size := by
  cases hn : doc.node? p with
  | none => simp [tag?, content?, hn] at h
  | some n => exact lt_size_of_node? hn

theorem Linked.inRange (hd : doc.Linked) {n : Node} (hn : n ∈ doc.nodes) :
    (∀ p ∈ n.parent, p < doc.size) ∧ ∀ c ∈ n.children, c < doc.size := by
  obtain ⟨j, hj⟩ := Array.mem_iff_getElem?.1 hn
  refine ⟨fun p hp => ?_, fun c hc => ?_⟩
  · have hp' : doc.parent? j = some p := (parent?_of_node? hj).trans hp
    exact lt_size_of_mem_children ((hd.mem_children p j).2 hp')
  · rw [← children_of_node? hj, hd.mem_children] at hc
    exact lt_size_of_parent? hc

end Linked

/-! ## Linking a node as the last child -/

section AppendChild

variable {doc doc' : Document} {p c : NodeId}

theorem appendChild_eq_ok (h : doc.appendChild p c = (.ok (), doc')) :
    (doc.tag? p).isSome ∧ doc.parent? c = none ∧ c ≠ doc.root ∧
      doc' = (doc.modify p fun n => { n with children := n.children ++ [c] }).modify c
        fun n => { n with parent := some p } := by
  rw [appendChild_eq] at h
  split at h
  · cases h
  · rename_i hp
    split at h
    · cases h
    · rename_i hc
      simp only [Bool.or_eq_true, decide_eq_true_eq, not_or] at hc
      exact ⟨by simpa [Option.isSome_iff_ne_none] using hp, by simpa using hc.1, hc.2,
        (congrArg Prod.snd h).symm⟩

theorem node?_appendChild (h : doc.appendChild p c = (.ok (), doc')) (j : NodeId) :
    doc'.node? j = (doc.node? j).map fun n =>
      ⟨n.content, if j = c then some p else n.parent,
        if j = p then n.children ++ [c] else n.children⟩ := by
  obtain ⟨-, -, -, rfl⟩ := appendChild_eq_ok h
  rw [node?_modify, node?_modify]
  cases doc.node? j with
  | none => simp
  | some n => by_cases hc : c = j <;> by_cases hp : p = j <;> simp [hc, hp, eq_comm (a := j)]

theorem appendChild_maps (h : doc.appendChild p c = (.ok (), doc')) :
    Maps (fun j n => ⟨n.content, if j = c then some p else n.parent,
      if j = p then n.children ++ [c] else n.children⟩) doc doc' := by
  refine ⟨?_, node?_appendChild h⟩
  obtain ⟨-, -, -, rfl⟩ := appendChild_eq_ok h
  rfl

theorem children_appendChild (h : doc.appendChild p c = (.ok (), doc')) (j : NodeId) :
    doc'.children j = if j = p then doc.children j ++ [c] else doc.children j := by
  have hp : (doc.tag? p).isSome := (appendChild_eq_ok h).1
  cases hn : doc.node? j with
  | none =>
    have hj : j ≠ p := by
      rintro rfl
      simp [tag?, content?, hn] at hp
    rw [if_neg hj, (appendChild_maps h).children_nil hn]
    simp [children, hn]
  | some n => rw [(appendChild_maps h).children_eq hn, children_of_node? hn]

theorem parent?_appendChild (h : doc.appendChild p c = (.ok (), doc')) (hc : c < doc.size)
    (j : NodeId) :
    doc'.parent? j = if j = c then some p else doc.parent? j := by
  cases hn : doc.node? j with
  | none =>
    have hj : j ≠ c := by
      rintro rfl
      simpa [hn] using node?_isSome.2 hc
    rw [if_neg hj, parent?, node?_appendChild h, hn, parent?, hn]
    rfl
  | some n => rw [(appendChild_maps h).parent?_eq hn, parent?_of_node? hn]

theorem content?_appendChild (h : doc.appendChild p c = (.ok (), doc')) (j : NodeId) :
    doc'.content? j = doc.content? j := by
  simp [content?, node?_appendChild h, Function.comp_def]

theorem Linked.appendChild (hd : doc.Linked) (h : doc.appendChild p c = (.ok (), doc'))
    (hc : c < doc.size) : doc'.Linked := by
  obtain ⟨hp, hfree, hroot, -⟩ := appendChild_eq_ok h
  have hm := appendChild_maps h
  have hout : ∀ q, c ∉ doc.children q := fun q hq => by simp [hd.mem_children, hfree] at hq
  refine ⟨fun q x => ?_, fun q => ?_, ?_, ?_, fun q hq => ?_⟩
  · rw [children_appendChild h, parent?_appendChild h hc]
    by_cases hx : x = c
    · subst hx
      by_cases hq : q = p
      · simp [hq]
      · simp [hq, hout, Ne.symm hq]
    · by_cases hq : q = p <;> simp [hq, hx, hd.mem_children]
  · rw [children_appendChild h]
    split
    · rw [List.nodup_append]
      refine ⟨hd.nodup q, by simp, ?_⟩
      rintro x hx y hy rfl
      rw [List.mem_singleton] at hy
      exact hout q (hy ▸ hx)
    · exact hd.nodup q
  · rw [hm.root, hm.size]
    exact hd.root_lt
  · rw [hm.root, parent?_appendChild h hc, if_neg (Ne.symm hroot), hd.root_parent]
  · rw [children_appendChild h] at hq
    rw [tag?, content?_appendChild h]
    by_cases hqp : q = p
    · exact hqp ▸ hp
    · rw [if_neg hqp] at hq
      exact hd.isElement q hq

end AppendChild

theorem insertAfter_eq_ok {doc doc' : Document} {ref new : NodeId}
    (h : doc.insertAfter ref new = (.ok (), doc')) :
    ∃ p, doc.parent? ref = some p ∧ doc.parent? new = none ∧ new ≠ doc.root := by
  rw [insertAfter_eq] at h
  split at h
  · cases h
  · rename_i hn
    simp only [Bool.or_eq_true, decide_eq_true_eq, not_or] at hn
    cases hp : doc.parent? ref with
    | none => simp [hp] at h
    | some p => exact ⟨p, rfl, by simpa using hn.1, hn.2⟩

/-! ## Calls that are refused -/

section Refused

variable {doc doc' : Document} {id : NodeId} {e : DocumentError}

theorem appendChild_eq_error {p c : NodeId} (h : doc.appendChild p c = (.error e, doc')) :
    doc' = doc := by
  rw [appendChild_eq] at h
  split at h
  · exact (congrArg Prod.snd h).symm
  · split at h
    · exact (congrArg Prod.snd h).symm
    · cases h

theorem insertAfter_eq_error {ref new : NodeId}
    (h : doc.insertAfter ref new = (.error e, doc')) : doc' = doc := by
  rw [insertAfter_eq] at h
  split at h
  · exact (congrArg Prod.snd h).symm
  · split at h
    · exact (congrArg Prod.snd h).symm
    · split at h
      · exact (congrArg Prod.snd h).symm
      · cases h

theorem detach_eq_error (h : doc.detach id = (.error e, doc')) : doc' = doc := by
  rw [detach_eq] at h
  split at h
  · exact (congrArg Prod.snd h).symm
  · cases h

theorem setTag_eq_error {tag : String} (h : doc.setTag id tag = (.error e, doc')) :
    doc' = doc := by
  rw [setTag_eq] at h
  split at h
  · exact (congrArg Prod.snd h).symm
  · cases h

theorem setAttribute_eq_error {name value : String}
    (h : doc.setAttribute id name value = (.error e, doc')) : doc' = doc := by
  rw [setAttribute_eq] at h
  split at h
  · exact (congrArg Prod.snd h).symm
  · cases h

theorem removeAttribute_eq_none {name : String}
    (h : doc.removeAttribute id name = (none, doc')) : doc' = doc := by
  rw [removeAttribute_eq, Prod.mk.injEq] at h
  rw [← h.2, h.1]
  rfl

theorem renameAttribute_eq_false {old new : String}
    (h : doc.renameAttribute id old new = (false, doc')) : doc' = doc := by
  rw [renameAttribute_eq, Prod.mk.injEq, Option.isSome_eq_false_iff] at h
  rw [← h.2, if_pos h.1]

end Refused

/-! ## Edits of what nodes hold -/

/-- An edit after which elements are elements and distinct names are distinct. -/
def Retouches (doc doc' : Document) : Prop :=
  ∃ f : NodeId → Content → Content, Relabels f doc doc' ∧
    (∀ j c, (f j c).tag?.isSome = c.tag?.isSome) ∧
    ∀ j c, Distinct c.attributes → Distinct (f j c).attributes

namespace Retouches

variable {doc doc' : Document} {id : NodeId}

theorem refl (doc : Document) : Retouches doc doc :=
  ⟨_, Relabels.refl doc, fun _ _ => rfl, fun _ _ h => h⟩

theorem of_onNode {f : Content → Content} (h : Relabels (onNode id f) doc doc')
    (htag : ∀ c, (f c).tag?.isSome = c.tag?.isSome)
    (hf : ∀ c, Distinct c.attributes → Distinct (f c).attributes) : Retouches doc doc' := by
  refine ⟨_, h, fun j c => ?_, fun j c hc => ?_⟩
  · unfold onNode
    split
    · exact htag c
    · rfl
  · unfold onNode
    split
    · exact hf c hc
    · exact hc

theorem of_mapAttributes {f : List Attribute → List Attribute}
    (h : Relabels (onNode id (Content.mapAttributes f)) doc doc')
    (hf : ∀ as, Distinct as → Distinct (f as)) : Retouches doc doc' := by
  refine of_onNode h (fun c => by cases c <;> rfl) fun c hc => ?_
  cases c with
  | element tag as => exact hf as hc
  | text v => exact hc
  | cdata v => exact hc
  | comment v => exact hc

theorem setTag (doc : Document) (id : NodeId) (tag : String) :
    Retouches doc (doc.setTag id tag).2 := by
  cases ht : doc.tag? id with
  | none =>
    rw [setTag_eq, ht]
    exact refl doc
  | some t =>
    obtain ⟨doc', he, hr⟩ := setTag_relabels ht tag
    rw [he]
    exact of_onNode hr (fun c => by cases c <;> rfl) fun c hc => by cases c <;> exact hc

theorem setAttribute (doc : Document) (id : NodeId) (name value : String) :
    Retouches doc (doc.setAttribute id name value).2 := by
  cases ht : doc.tag? id with
  | none =>
    rw [setAttribute_eq, ht]
    exact refl doc
  | some t =>
    obtain ⟨doc', he, hr⟩ := setAttribute_relabels ht name value
    rw [he]
    exact of_mapAttributes hr fun as h => h.setAttribute name value

theorem removeAttribute (doc : Document) (id : NodeId) (name : String) :
    Retouches doc (doc.removeAttribute id name).2 :=
  of_mapAttributes (removeAttribute_relabels doc id name) fun _ h => h.sublist List.eraseP_sublist

theorem renameAttribute (doc : Document) (id : NodeId) (old new : String) :
    Retouches doc (doc.renameAttribute id old new).2 :=
  of_mapAttributes (renameAttribute_relabels doc id old new) fun _ h => h.renamed old new

theorem linked (h : Retouches doc doc') (hd : doc.Linked) : doc'.Linked := by
  obtain ⟨f, hr, htag, -⟩ := h
  exact hr.linked hd fun j c _ hc => by rwa [htag]

theorem distinct (h : Retouches doc doc') (hd : ∀ j, Distinct (doc.attributes j)) (j : NodeId) :
    Distinct (doc'.attributes j) := by
  obtain ⟨f, hr, -, hf⟩ := h
  have hj := hd j
  unfold attributes at hj ⊢
  rw [hr.content?]
  cases hc : doc.content? j with
  | none => exact Markup.distinct_nil
  | some c =>
    rw [hc] at hj
    exact hf j c hj

end Retouches

/-! ## Edits of the links -/

/-- An edit after which the links agree again and nodes hold what they held. -/
structure Relinks (doc doc' : Document) : Prop where
  linked : doc'.Linked
  content? : ∀ j, doc'.content? j = doc.content? j

namespace Relinks

variable {doc : Document}

theorem refl (hd : doc.Linked) : Relinks doc doc :=
  ⟨hd, fun _ => rfl⟩

theorem appendChild (hd : doc.Linked) {p c : NodeId} (hc : c < doc.size) :
    Relinks doc (doc.appendChild p c).2 := by
  rcases h : doc.appendChild p c with ⟨e | u, doc'⟩
  · obtain rfl := appendChild_eq_error h
    exact refl hd
  · exact ⟨hd.appendChild h hc, content?_appendChild h⟩

theorem insertAfter (hd : doc.Linked) {ref new : NodeId} (hn : new < doc.size) :
    Relinks doc (doc.insertAfter ref new).2 := by
  rcases h : doc.insertAfter ref new with ⟨e | u, doc'⟩
  · obtain rfl := insertAfter_eq_error h
    exact refl hd
  · obtain ⟨p, hp, hfree, hroot⟩ := insertAfter_eq_ok h
    obtain ⟨doc₁, he, hm⟩ := insertAfter_maps hd hp hfree hroot
    obtain rfl : doc₁ = doc' := congrArg Prod.snd (he.symm.trans h)
    exact ⟨hd.insertAfter hp hfree hroot hn hm, hm.content?_relink⟩

theorem detach (hd : doc.Linked) (id : NodeId) : Relinks doc (doc.detach id).2 := by
  cases hp : doc.parent? id with
  | none =>
    rw [detach_eq, hp]
    exact refl hd
  | some p =>
    obtain ⟨doc', he, hm⟩ := detach_maps hd hp
    rw [he]
    exact ⟨hd.detach hm, hm.content?_relink⟩

theorem distinct {doc' : Document} (h : Relinks doc doc')
    (hd : ∀ j, Distinct (doc.attributes j)) (j : NodeId) : Distinct (doc'.attributes j) := by
  unfold attributes
  rw [h.content?]
  exact hd j

end Relinks

/-! ## A call and a run -/

section Run

variable {doc : Document}

theorem Linked.apply (hd : doc.Linked) {e : Edit} (hids : ∀ id ∈ e.ids, id < doc.size) :
    (e.apply doc).Linked := by
  cases e with
  | createElement tag as => exact hd.createElement tag as
  | appendChild p c => exact (Relinks.appendChild hd (hids c (by simp [Edit.ids]))).linked
  | insertAfter ref new => exact (Relinks.insertAfter hd (hids new (by simp [Edit.ids]))).linked
  | detach id => exact (Relinks.detach hd id).linked
  | setTag id tag => exact (Retouches.setTag doc id tag).linked hd
  | setAttribute id name value => exact (Retouches.setAttribute doc id name value).linked hd
  | removeAttribute id name => exact (Retouches.removeAttribute doc id name).linked hd
  | renameAttribute id old new => exact (Retouches.renameAttribute doc id old new).linked hd

theorem distinct_createElement {tag : String} {as : List Attribute} (has : Distinct as)
    (hd : ∀ j, Distinct (doc.attributes j)) (j : NodeId) :
    Distinct ((doc.createElement tag as).1.attributes j) := by
  unfold attributes content?
  rw [node?_createElement]
  split
  · exact has
  · exact hd j

theorem Linked.distinct_apply (hd : doc.Linked) {e : Edit} (hids : ∀ id ∈ e.ids, id < doc.size)
    (has : Distinct e.attributes) (hdist : ∀ j, Distinct (doc.attributes j)) (j : NodeId) :
    Distinct ((e.apply doc).attributes j) := by
  cases e with
  | createElement tag as => exact distinct_createElement has hdist j
  | appendChild p c => exact (Relinks.appendChild hd (hids c (by simp [Edit.ids]))).distinct hdist j
  | insertAfter ref new =>
    exact (Relinks.insertAfter hd (hids new (by simp [Edit.ids]))).distinct hdist j
  | detach id => exact (Relinks.detach hd id).distinct hdist j
  | setTag id tag => exact (Retouches.setTag doc id tag).distinct hdist j
  | setAttribute id name value => exact (Retouches.setAttribute doc id name value).distinct hdist j
  | removeAttribute id name => exact (Retouches.removeAttribute doc id name).distinct hdist j
  | renameAttribute id old new => exact (Retouches.renameAttribute doc id old new).distinct hdist j

theorem Linked.run : ∀ {edits : List Edit} {doc : Document}, doc.Linked → Edit.Issued doc edits →
    (Edit.run doc edits).Linked
  | [], _, hd, _ => hd
  | e :: edits, doc, hd, h => by
    obtain ⟨hids, hrest⟩ := h
    have hrun := Linked.run (hd.apply hids) hrest
    exact hrun

theorem Linked.distinct_run : ∀ {edits : List Edit} {doc : Document}, doc.Linked →
    Edit.Issued doc edits → (∀ e ∈ edits, Distinct e.attributes) →
      (∀ j, Distinct (doc.attributes j)) → ∀ j, Distinct ((Edit.run doc edits).attributes j)
  | [], _, _, _, _, hdist => hdist
  | e :: edits, doc, hd, h, has, hdist => by
    obtain ⟨hids, hrest⟩ := h
    have hfirst := hd.distinct_apply hids (has e (by simp)) hdist
    have hrun := Linked.distinct_run (hd.apply hids) hrest (fun e' he' => has e' (by simp [he']))
      hfirst
    exact hrun

end Run

/-! ## Documents that were read -/

theorem linked_of_parse {source : String} {doc : Document} (h : parse source = .ok doc) :
    doc.Linked := by
  obtain ⟨declaration, t, ht, rfl⟩ := exists_ofForest_of_parse h
  exact (hasTree_ofForest declaration ht).linked

theorem contents_layOut : ∀ (t : Forest Content) (parent : Option NodeId) (next : NodeId),
    (layOut parent next t).map Node.content = t.preorder
  | .nil, _, _ => rfl
  | .node c b a, parent, next => by
    rw [layOut, List.map_cons, List.map_append, contents_layOut b, contents_layOut a,
      Forest.preorder_node]

theorem content?_ofForest (declaration : Option Declaration) (t : Forest Content) (j : NodeId) :
    (ofForest declaration t).content? j = t.preorder[j]? := by
  rw [← contents_layOut t none 0, List.getElem?_map]
  simp [content?, node?, ofForest]

theorem Regular.distinct : ∀ {t : Forest Content}, Regular t → ∀ c ∈ t.preorder,
    Distinct c.attributes
  | .nil, _, c, hc => by simp at hc
  | .node a b r, h, c, hc => by
    obtain ⟨ha, -, hb, hr⟩ := h
    rw [Forest.preorder_node, List.mem_cons, List.mem_append] at hc
    rcases hc with rfl | hc | hc
    · exact ha
    · exact hb.distinct c hc
    · exact hr.distinct c hc

theorem distinct_of_parse {source : String} {doc : Document} (h : parse source = .ok doc)
    (j : NodeId) : Distinct (doc.attributes j) := by
  obtain ⟨declaration, t, ht, rfl⟩ := exists_ofForest_of_parse h
  unfold attributes
  rw [content?_ofForest]
  cases hc : t.preorder[j]? with
  | none => exact Markup.distinct_nil
  | some c => exact ht.regular.distinct c (List.mem_of_getElem? hc)

/-- Whatever calls are made on the nodes of a document that has been read, it stays well formed. -/
theorem run_wellFormed {source : String} {doc : Document} {edits : List Edit}
    (hparse : parse source = .ok doc) (hids : Edit.Issued doc edits)
    (hnames : ∀ e ∈ edits, Distinct e.attributes) : (Edit.run doc edits).WellFormed := by
  have hlinked := linked_of_parse hparse
  have hrun := hlinked.run hids
  exact ⟨hrun, fun n hn => hrun.inRange hn,
    hlinked.distinct_run hids hnames (distinct_of_parse hparse)⟩

/-- Two elements with an attribute each. -/
def twoElements : Document :=
  ofForest none (.node (.element "a" [⟨"x", "1"⟩]) (.leaf (.element "b" [⟨"y", "2"⟩])) .nil)

/-- Calls that link a new element below itself, take it out again and put it in elsewhere, rename an
attribute to a name that is taken, and try to detach the root. -/
def restlessEdits : List Edit :=
  [.createElement "c" [⟨"k", "3"⟩, ⟨"l", "4"⟩], .appendChild 2 2, .detach 2, .insertAfter 1 2,
    .renameAttribute 2 "l" "k", .detach 0]

theorem run_wellFormed_restless :
    parse "<a x=\"1\"><b y=\"2\"/></a>" = .ok twoElements ∧
      Edit.Issued twoElements restlessEdits ∧
      (∀ e ∈ restlessEdits, Distinct e.attributes) ∧
      (Edit.run twoElements restlessEdits).WellFormed ∧
      (Edit.run twoElements restlessEdits).children 0 = [1, 2] ∧
      (Edit.run twoElements restlessEdits).attributes 2 = [⟨"k", "4"⟩] := by
  have hparse : parse "<a x=\"1\"><b y=\"2\"/></a>" = .ok twoElements := by decide +kernel
  have hids : Edit.Issued twoElements restlessEdits := by decide +kernel
  have hnames : ∀ e ∈ restlessEdits, Distinct e.attributes := by
    unfold Distinct
    decide +kernel
  exact ⟨hparse, hids, hnames, run_wellFormed hparse hids hnames, by decide +kernel,
    by decide +kernel⟩

end Document

end SkillCompiler
