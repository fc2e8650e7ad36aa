import SkillCompiler.Proofs.Document.Edits

/-!
# Edits that fail and edits that are taken back

Whether a call fails can be said from the document alone (`Edit.fails_iff`), and a call that fails
leaves the document as it was. A call that links a node puts it in at one place among the children
of one node and changes nothing else (`Adopts`). In a linked document the node stood nowhere before,
so detaching it takes out what was put in, and the document is the old one (`Adopts.detach`); this
holds also if the node was linked below itself.
-/

namespace SkillCompiler

namespace Document

/-! ## Calls that fail -/

namespace Edit

/-- Whether a call reports a failure: an error, no value, or `false`. -/
def fails (doc : Document) : Edit → Bool
  | createElement .. => false
  | appendChild parent child => !(doc.appendChild parent child).1.isOk
  | insertAfter reference new => !(doc.insertAfter reference new).1.isOk
  | detach id => !(doc.detach id).1.isOk
  | setTag id tag => !(doc.setTag id tag).1.isOk
  | setAttribute id name value => !(doc.setAttribute id name value).1.isOk
  | removeAttribute id name => (doc.removeAttribute id name).1.isNone
  | renameAttribute id old new => !(doc.renameAttribute id old new).1

/-- What stands against a call. -/
def IsRefused (doc : Document) : Edit → Prop
  | createElement .. => False
  | appendChild parent child =>
    doc.tag? parent = none ∨ (doc.parent? child).isSome ∨ child = doc.root
  | insertAfter reference new =>
    doc.parent? reference = none ∨ (doc.parent? new).isSome ∨ new = doc.root
  | detach id => doc.parent? id = none
  | setTag id _ => doc.tag? id = none
  | setAttribute id .. => doc.tag? id = none
  | removeAttribute id name => doc.attribute? id name = none
  | renameAttribute id old _ => doc.attribute? id old = none

variable {doc : Document}

theorem snd_of_error {edited : Except DocumentError Unit × Document}
    (herror : ∀ {e doc'}, edited = (.error e, doc') → doc' = doc)
    (h : (!edited.1.isOk) = true) : edited.2 = doc := by
  rcases edited with ⟨e | u, doc'⟩
  · exact herror rfl
  · simp [Except.isOk, Except.toBool] at h

/-- Every call makes its checks before its changes. -/
theorem apply_of_fails {e : Edit} (h : e.fails doc) : e.apply doc = doc := by
  cases e with
  | createElement tag as => simp [fails] at h
  | appendChild p c => exact snd_of_error appendChild_eq_error h
  | insertAfter ref new => exact snd_of_error insertAfter_eq_error h
  | detach id => exact snd_of_error detach_eq_error h
  | setTag id tag => exact snd_of_error setTag_eq_error h
  | setAttribute id name value => exact snd_of_error setAttribute_eq_error h
  | removeAttribute id name =>
    rw [fails, Option.isNone_iff_eq_none] at h
    exact removeAttribute_eq_none (Prod.ext h rfl)
  | renameAttribute id old new =>
    rw [fails, Bool.not_eq_true'] at h
    exact renameAttribute_eq_false (Prod.ext h rfl)

end Edit

section Fails

variable {doc : Document}

theorem isOk_appendChild (p c : NodeId) :
    (doc.appendChild p c).1.isOk =
      ((doc.tag? p).isSome && !((doc.parent? c).isSome || c = doc.root)) := by
  rw [appendChild_eq]
  cases doc.tag? p with
  | none => rfl
  | some tag => cases ((doc.parent? c).isSome || decide (c = doc.root)) <;> rfl

/-- A node with a parent is found among its children, so only the two checks can fail. -/
theorem Linked.isOk_insertAfter (hd : doc.Linked) (ref new : NodeId) :
    (doc.insertAfter ref new).1.isOk =
      ((doc.parent? ref).isSome && !((doc.parent? new).isSome || new = doc.root)) := by
  cases hfree : ((doc.parent? new).isSome || decide (new = doc.root)) with
  | true =>
    rw [Bool.not_true, Bool.and_false, insertAfter_eq, if_pos hfree]
    rfl
  | false =>
    rw [Bool.not_false, Bool.and_true]
    cases hp : doc.parent? ref with
    | none =>
      rw [insertAfter_eq, if_neg (by simp [hfree]), hp]
      rfl
    | some p =>
      simp only [Bool.or_eq_false_iff, decide_eq_false_iff_not, Option.isSome_eq_false_iff,
        Option.isNone_iff_eq_none] at hfree
      obtain ⟨doc', hok, -⟩ := insertAfter_maps hd hp hfree.1 hfree.2
      rw [hok]
      rfl

theorem isOk_detach (id : NodeId) : (doc.detach id).1.isOk = (doc.parent? id).isSome := by
  rw [detach_eq]
  cases doc.parent? id <;> rfl

theorem isOk_setTag (id : NodeId) (tag : String) :
    (doc.setTag id tag).1.isOk = (doc.tag? id).isSome := by
  rw [setTag_eq]
  cases doc.tag? id <;> rfl

theorem isOk_setAttribute (id : NodeId) (name value : String) :
    (doc.setAttribute id name value).1.isOk = (doc.tag? id).isSome := by
  rw [setAttribute_eq]
  cases doc.tag? id <;> rfl

/-- A call fails exactly if something stands against it. -/
theorem Edit.fails_iff (hd : doc.Linked) (e : Edit) : e.fails doc ↔ e.IsRefused doc := by
  cases e with
  | createElement tag as => simp [fails, IsRefused]
  | appendChild p c => simp [fails, IsRefused, isOk_appendChild]
  | insertAfter ref new => simp [fails, IsRefused, hd.isOk_insertAfter]
  | detach id => simp [fails, IsRefused, isOk_detach]
  | setTag id tag => simp [fails, IsRefused, isOk_setTag]
  | setAttribute id name value => simp [fails, IsRefused, isOk_setAttribute]
  | removeAttribute id name => simp [fails, IsRefused, removeAttribute_eq]
  | renameAttribute id old new => simp [fails, IsRefused, renameAttribute_eq]

end Fails

/-! ## Calls that link a node -/

/-- Documents with the same nodes are the same. -/
theorem ext_node? {doc doc' : Document} (hroot : doc'.root = doc.root)
    (hdeclaration : doc'.declaration = doc.declaration)
    (hnode : ∀ j, doc'.node? j = doc.node? j) : doc' = doc := by
  rcases doc with ⟨nodes, root, declaration⟩
  rcases doc' with ⟨nodes', root', declaration'⟩
  obtain rfl : nodes' = nodes := Array.ext_getElem? hnode
  obtain rfl : root' = root := hroot
  obtain rfl : declaration' = declaration := hdeclaration
  rfl

/-- The node `c` gets the parent `p` and a place among its children; nothing else changes. -/
structure Adopts (p c : NodeId) (left right : List NodeId) (doc doc' : Document) : Prop where
  declaration : doc'.declaration = doc.declaration
  split : doc.children p = left ++ right
  maps : Maps (fun j n => ⟨n.content, if j = c then some p else n.parent,
    if j = p then left ++ c :: right else n.children⟩) doc doc'

namespace Adopts

variable {doc doc' : Document} {p c : NodeId} {left right : List NodeId}

theorem parent? (h : Adopts p c left right doc doc') (hc : c < doc.size) :
    doc'.parent? c = some p := by
  obtain ⟨n, hn⟩ := Option.isSome_iff_exists.1 (node?_isSome.2 hc)
  rw [h.maps.parent?_eq hn, if_pos rfl]

theorem children (h : Adopts p c left right doc doc') (hp : p < doc.size) :
    doc'.children p = left ++ c :: right := by
  obtain ⟨n, hn⟩ := Option.isSome_iff_exists.1 (node?_isSome.2 hp)
  rw [h.maps.children_eq hn, if_pos rfl]

theorem children_of_ne (h : Adopts p c left right doc doc') {q : NodeId} (hq : q ≠ p) :
    doc'.children q = doc.children q := by
  cases hn : doc.node? q with
  | none =>
    rw [h.maps.children_nil hn]
    simp [Document.children, hn]
  | some n => rw [h.maps.children_eq hn, if_neg hq, children_of_node? hn]

/-- A node that stood nowhere before is the only one that detaching it takes out. -/
theorem filter_children (h : Adopts p c left right doc doc') (hd : doc.Linked)
    (hfree : doc.parent? c = none) :
    (left ++ c :: right).filter (· ≠ c) = doc.children p := by
  have hout : ∀ x ∈ left ++ right, x ≠ c := by
    rintro x hx rfl
    rw [← h.split, hd.mem_children, hfree] at hx
    cases hx
  have hself : (left ++ right).filter (· ≠ c) = left ++ right :=
    List.filter_eq_self.2 fun x hx => by simpa using hout x hx
  rw [List.filter_append, List.filter_cons_of_neg (by simp), ← List.filter_append, hself, h.split]

theorem detach (h : Adopts p c left right doc doc') (hd : doc.Linked) (hc : c < doc.size)
    (hfree : doc.parent? c = none) : doc'.detach c = (.ok (), doc) := by
  rw [detach_eq, h.parent? hc]
  refine Prod.ext rfl (ext_node? h.maps.root h.declaration fun j => ?_)
  rw [node?_modify, node?_modify, h.maps.node?]
  cases hn : doc.node? j with
  | none => simp
  | some n =>
    rcases n with ⟨content, parent, children⟩
    have hchildren : p = j → (left ++ c :: right).filter (· ≠ c) = children := by
      rintro rfl
      rw [h.filter_children hd hfree, children_of_node? hn]
    have hparent : c = j → parent = none := by
      rintro rfl
      rw [← hfree, parent?_of_node? hn]
    -- Only the children of `p` and the parent of `c` were changed; `p` may be `c`.
    by_cases hjp : p = j
    · obtain rfl := hchildren hjp
      by_cases hjc : c = j
      · obtain rfl := hparent hjc
        simp [hjp, hjc]
      · simp [hjp, hjc, Ne.symm hjc]
    · by_cases hjc : c = j
      · obtain rfl := hparent hjc
        simp [hjp, Ne.symm hjp, hjc]
      · simp [hjp, Ne.symm hjp, hjc, Ne.symm hjc]

end Adopts

section Links

variable {doc doc' : Document} {c : NodeId}

theorem adopts_of_appendChild {p : NodeId} (h : doc.appendChild p c = (.ok (), doc')) :
    Adopts p c (doc.children p) [] doc doc' := by
  obtain ⟨hp, -, -, hdoc⟩ := appendChild_eq_ok h
  refine ⟨by rw [hdoc]; rfl, (List.append_nil _).symm, (appendChild_maps h).root, fun j => ?_⟩
  rw [node?_appendChild h]
  cases hn : doc.node? j with
  | none => rfl
  | some n =>
    by_cases hj : j = p
    · subst hj
      simp [children_of_node? hn]
    · simp [hj]

theorem splice_append (id : NodeId) (new ids ids' : List NodeId) :
    splice id new (ids ++ ids') = splice id new ids ++ splice id new ids' :=
  List.flatMap_append

/-- The node stands directly after the one that it was inserted after. -/
theorem Linked.adopts_of_insertAfter (hd : doc.Linked) {r : NodeId}
    (h : doc.insertAfter r c = (.ok (), doc')) :
    ∃ p left right, p < doc.size ∧ Adopts p c (left ++ [r]) right doc doc' := by
  obtain ⟨p, hp, hfree, hroot⟩ := insertAfter_eq_ok h
  have hmem : r ∈ doc.children p := (hd.mem_children p r).2 hp
  obtain ⟨left, right, hsplit⟩ := List.append_of_mem hmem
  obtain ⟨hleft, hright⟩ : r ∉ left ∧ r ∉ right := by
    have hnodup := hd.nodup p
    rw [hsplit, List.nodup_append, List.nodup_cons] at hnodup
    exact ⟨fun hr => hnodup.2.2 r hr r (List.mem_cons_self ..) rfl, hnodup.2.1.1⟩
  have hspliced : splice r [r, c] (doc.children p) = left ++ [r] ++ c :: right := by
    rw [hsplit, splice_append, splice_of_notMem hleft, splice_cons, if_pos rfl,
      splice_of_notMem hright]
    simp
  obtain ⟨doc₁, hok, hmaps⟩ := insertAfter_maps hd hp hfree hroot
  obtain rfl : doc₁ = doc' := congrArg Prod.snd (hok.symm.trans h)
  have hdeclaration := declaration_insertAfter doc r c
  rw [h] at hdeclaration
  refine ⟨p, left, right, lt_size_of_mem_children hmem, hdeclaration, by simp [hsplit], hmaps.root,
    fun j => ?_⟩
  rw [hmaps.node?]
  cases hn : doc.node? j with
  | none => rfl
  | some n =>
    by_cases hj : j = p
    · subst hj
      rw [children_of_node? hn] at hspliced
      simp [relink, hspliced]
    · simp [relink, hj, hd.splice_children hp hj hn]

end Links

/-! ## Documents that were read and edited -/

/-- In a document that was read and edited, a call fails exactly if something stands against it, and
then it leaves the document as it was. A node that is appended is the last child of its parent, one
that is inserted stands directly after its reference, no other list of children changes, and
detaching the node gives back the document from before. -/
theorem run_detach_restores {source : String} {doc doc' : Document} {edits : List Edit}
    (hparse : parse source = .ok doc) (hissued : Edit.Issued doc edits)
    (hrun : Edit.run doc edits = doc') :
    (∀ e : Edit, (e.fails doc' ↔ e.IsRefused doc') ∧ (e.fails doc' → e.apply doc' = doc')) ∧
    (∀ p c after, c < doc'.size → doc'.appendChild p c = (.ok (), after) →
      after.parent? c = some p ∧ after.children p = doc'.children p ++ [c] ∧
      (∀ q, q ≠ p → after.children q = doc'.children q) ∧ after.detach c = (.ok (), doc')) ∧
    ∀ r c after, c < doc'.size → doc'.insertAfter r c = (.ok (), after) →
      ∃ p left right, after.parent? c = some p ∧ doc'.children p = left ++ r :: right ∧
        after.children p = left ++ r :: c :: right ∧
        (∀ q, q ≠ p → after.children q = doc'.children q) ∧ after.detach c = (.ok (), doc') := by
  have hd : doc'.Linked := hrun ▸ (linked_of_parse hparse).run hissued
  refine ⟨fun e => ⟨e.fails_iff hd, Edit.apply_of_fails⟩, fun p c after hc h => ?_,
    fun r c after hc h => ?_⟩
  · obtain ⟨hp, hfree, -, -⟩ := appendChild_eq_ok h
    have hadopts := adopts_of_appendChild h
    exact ⟨hadopts.parent? hc, hadopts.children (lt_size_of_tag? hp),
      fun q hq => hadopts.children_of_ne hq, hadopts.detach hd hc hfree⟩
  · obtain ⟨-, -, hfree, -⟩ := insertAfter_eq_ok h
    obtain ⟨p, left, right, hp, hadopts⟩ := hd.adopts_of_insertAfter h
    have hbefore := hadopts.split
    have hafter := hadopts.children hp
    rw [List.append_assoc, List.singleton_append] at hbefore hafter
    exact ⟨p, left, right, hadopts.parent? hc, hbefore, hafter,
      fun q hq => hadopts.children_of_ne hq, hadopts.detach hd hc hfree⟩

/-- Calls after which a new element is linked below another new one. -/
def pairEdits : List Edit :=
  [.createElement "c" [], .createElement "d" [], .appendChild 2 3]

/-- The upper of two new elements can be linked below itself, by inserting it after the lower one;
detaching it takes this back. The root cannot be detached, and stays. -/
theorem run_detach_restores_pair :
    parse "<a x=\"1\"><b y=\"2\"/></a>" = .ok twoElements ∧
      Edit.Issued twoElements pairEdits ∧
      (Edit.detach 0).apply (Edit.run twoElements pairEdits) = Edit.run twoElements pairEdits ∧
      ∃ after, (Edit.run twoElements pairEdits).insertAfter 3 2 = (.ok (), after) ∧
        after.children 2 = [3, 2] ∧ after.parent? 2 = some 2 ∧
        after.detach 2 = (.ok (), Edit.run twoElements pairEdits) := by
  have hparse : parse "<a x=\"1\"><b y=\"2\"/></a>" = .ok twoElements := by decide +kernel
  have hissued : Edit.Issued twoElements pairEdits := by decide +kernel
  obtain ⟨hfails, -, hinsert⟩ := run_detach_restores hparse hissued rfl
  refine ⟨hparse, hissued, (hfails (.detach 0)).2 (by decide +kernel), ?_⟩
  obtain ⟨after, hafter, hchildren, hparent⟩ : ∃ after,
      (Edit.run twoElements pairEdits).insertAfter 3 2 = (.ok (), after) ∧
        after.children 2 = [3, 2] ∧ after.parent? 2 = some 2 :=
    ⟨_, rfl, by decide +kernel, by decide +kernel⟩
  obtain ⟨p, left, right, -, -, -, -, hdetach⟩ := hinsert 3 2 after (by decide +kernel) hafter
  exact ⟨after, hafter, hchildren, hparent, hdetach⟩

end Document

end SkillCompiler
