import SkillCompiler.Document.Basic
import SkillCompiler.Proofs.Log

/-!
# The links of a document

In a linked document the parents and the lists of children say the same (`Linked`). An edit checks
before it changes, so it gives an error and the old document or does all its changes; one equation
for each edit says when (`appendChild_eq` and those after it). The changes are described by what
they do to each node (`Maps`): a change of content, a node taken out of the lists of children, a
node put in after another. Each of them keeps the links, and the declaration too.
-/

namespace SkillCompiler

namespace Document

/-- Parents and children agree, no list of children repeats a node, the root is a node without a
parent, and only elements have children. -/
structure Linked (doc : Document) : Prop where
  mem_children : ∀ p c, c ∈ doc.children p ↔ doc.parent? c = some p
  nodup : ∀ p, (doc.children p).Nodup
  root_lt : doc.root < doc.size
  root_parent : doc.parent? doc.root = none
  isElement : ∀ p, doc.children p ≠ [] → (doc.tag? p).isSome

/-- An edit that changes every node by `f` and adds none. -/
structure Maps (f : NodeId → Node → Node) (doc doc' : Document) : Prop where
  root : doc'.root = doc.root
  node? : ∀ j, doc'.node? j = (doc.node? j).map (f j)

/-- An edit that changes contents only. -/
def Relabels (g : NodeId → Content → Content) : Document → Document → Prop :=
  Maps fun j n => { n with content := g j n.content }

/-! ## Nodes -/

theorem node?_modify (doc : Document) (id j : NodeId) (f : Node → Node) :
    (doc.modify id f).node? j = if id = j then (doc.node? j).map f else doc.node? j :=
  Array.getElem?_modify

theorem node?_isSome {doc : Document} {j : NodeId} : (doc.node? j).isSome ↔ j < doc.size := by
  simp [node?, size]

theorem lt_size_of_node? {doc : Document} {j : NodeId} {n : Node} (h : doc.node? j = some n) :
    j < doc.size :=
  node?_isSome.1 (by simp [h])

theorem content?_of_node? {doc : Document} {j : NodeId} {n : Node} (h : doc.node? j = some n) :
    doc.content? j = some n.content := by
  simp [content?, h]

theorem children_of_node? {doc : Document} {j : NodeId} {n : Node} (h : doc.node? j = some n) :
    doc.children j = n.children := by
  simp [children, h]

theorem parent?_of_node? {doc : Document} {j : NodeId} {n : Node} (h : doc.node? j = some n) :
    doc.parent? j = n.parent := by
  simp [parent?, h]

theorem exists_node?_of_parent? {doc : Document} {j p : NodeId} (h : doc.parent? j = some p) :
    ∃ n, doc.node? j = some n ∧ n.parent = some p := by
  simpa [parent?, Option.bind_eq_some_iff] using h

theorem exists_node?_of_content? {doc : Document} {j : NodeId} {c : Content}
    (h : doc.content? j = some c) : ∃ n, doc.node? j = some n ∧ n.content = c := by
  simpa [content?] using h

theorem exists_attributes_of_tag? {doc : Document} {j : NodeId} {tag : String}
    (h : doc.tag? j = some tag) : ∃ as, doc.content? j = some (.element tag as) := by
  simp only [tag?, Option.bind_eq_some_iff] at h
  obtain ⟨c, hc, ht⟩ := h
  cases c with
  | element t as =>
    simp only [Content.tag?, Option.some.injEq] at ht
    exact ⟨as, by rw [hc, ht]⟩
  | text v => simp [Content.tag?] at ht
  | cdata v => simp [Content.tag?] at ht
  | comment v => simp [Content.tag?] at ht

theorem tag?_of_content? {doc : Document} {j : NodeId} {tag : String} {as : List Attribute}
    (h : doc.content? j = some (.element tag as)) : doc.tag? j = some tag := by
  simp [tag?, h, Content.tag?]

/-! ## Edits of every node -/

namespace Maps

variable {f g : NodeId → Node → Node} {doc doc' doc'' : Document}

theorem size (h : Maps f doc doc') : doc'.size = doc.size := by
  have hlt : ∀ j, j < doc'.size ↔ j < doc.size := fun j => by
    rw [← node?_isSome, ← node?_isSome, h.node?, Option.isSome_map]
  have h1 := hlt doc.size
  have h2 := hlt doc'.size
  omega

theorem parent?_eq (h : Maps f doc doc') {j : NodeId} {n : Node} (hn : doc.node? j = some n) :
    doc'.parent? j = (f j n).parent :=
  parent?_of_node? (by rw [h.node?, hn, Option.map_some])

theorem children_eq (h : Maps f doc doc') {j : NodeId} {n : Node} (hn : doc.node? j = some n) :
    doc'.children j = (f j n).children :=
  children_of_node? (by rw [h.node?, hn, Option.map_some])

theorem content?_eq (h : Maps f doc doc') {j : NodeId} {n : Node} (hn : doc.node? j = some n) :
    doc'.content? j = some (f j n).content :=
  content?_of_node? (by rw [h.node?, hn, Option.map_some])

theorem children_nil (h : Maps f doc doc') {j : NodeId} (hn : doc.node? j = none) :
    doc'.children j = [] := by
  simp [children, h.node?, hn]

theorem trans (h : Maps f doc doc') (h' : Maps g doc' doc'') :
    Maps (fun j n => g j (f j n)) doc doc'' where
  root := h'.root.trans h.root
  node? j := by rw [h'.node?, h.node?, Option.map_map]; rfl

end Maps

namespace Relabels

variable {f g : NodeId → Content → Content} {doc doc' doc'' : Document}

theorem refl (doc : Document) : Relabels (fun _ c => c) doc doc where
  root := rfl
  node? j := by simp

theorem trans (h : Relabels f doc doc') (h' : Relabels g doc' doc'') :
    Relabels (fun j c => g j (f j c)) doc doc'' :=
  Maps.trans h h'

theorem congr (h : Relabels f doc doc')
    (hfg : ∀ j c, doc.content? j = some c → f j c = g j c) : Relabels g doc doc' where
  root := h.root
  node? j := by
    rw [h.node?]
    cases hn : doc.node? j with
    | none => rfl
    | some n => simp [hfg j n.content (content?_of_node? hn)]

theorem parent? (h : Relabels f doc doc') (j : NodeId) : doc'.parent? j = doc.parent? j := by
  rw [Document.parent?, h.node?, Option.bind_map]
  rfl

theorem children (h : Relabels f doc doc') (j : NodeId) : doc'.children j = doc.children j := by
  simp [Document.children, h.node?, Function.comp_def]

theorem content? (h : Relabels f doc doc') (j : NodeId) :
    doc'.content? j = (doc.content? j).map (f j) := by
  simp [Document.content?, h.node?, Function.comp_def]

theorem linked (h : Relabels f doc doc') (hd : doc.Linked)
    (hf : ∀ j c, doc.content? j = some c → c.tag?.isSome → (f j c).tag?.isSome) :
    doc'.Linked where
  mem_children p c := by rw [h.children, h.parent?, hd.mem_children]
  nodup p := by rw [h.children]; exact hd.nodup p
  root_lt := by rw [h.root, Maps.size h]; exact hd.root_lt
  root_parent := by rw [h.root, h.parent?, hd.root_parent]
  isElement p hp := by
    rw [h.children] at hp
    obtain ⟨tag, ht⟩ := Option.isSome_iff_exists.1 (hd.isElement p hp)
    obtain ⟨as, hc⟩ := exists_attributes_of_tag? ht
    rw [tag?, h.content?, hc]
    exact hf p _ hc rfl

end Relabels

end Document

/-! ## The steps of an edit -/

namespace DocumentAction

variable {α β : Type} (doc : Document) (id : NodeId)

/-- Work goes on with the document that the work before it left, and stops at an error. -/
theorem on_bind (action : DocumentAction α) (next : α → DocumentAction β) :
    on doc (action >>= next) =
      match on doc action with
      | (.ok a, doc') => on doc' (next a)
      | (.error e, doc') => (.error e, doc') := by
  simp only [on, ExceptT.run_bind, StateT.run_bind]
  rcases StateT.run action.run doc with ⟨e | a, doc'⟩ <;> rfl

/-- Work that begins with reading the document. -/
theorem on_get_bind (next : Document → DocumentAction β) :
    on doc (do next (← get)) = on doc (next doc) := by
  rw [on_bind]
  rfl

theorem on_change (f : Node → Node) : on doc (change id f) = (.ok (), doc.modify id f) := rfl

theorem on_requireElement :
    on doc (requireElement id) =
      (if (doc.tag? id).isNone then .error (.notAnElement id) else .ok (), doc) := by
  rw [requireElement, on_get_bind]
  split <;> rfl

theorem on_requireDetached :
    on doc (requireDetached id) =
      (if (doc.parent? id).isSome || id = doc.root then .error (.alreadyAttached id) else .ok (),
        doc) := by
  rw [requireDetached, on_get_bind]
  split <;> rfl

theorem on_parentOf :
    on doc (parentOf id) =
      (match doc.parent? id with
        | some parent => .ok parent
        | none => .error (.detached id), doc) := by
  rw [parentOf, on_get_bind]
  cases doc.parent? id <;> rfl

/-- Work that begins with asking for an element. -/
theorem on_element (next : DocumentAction β) :
    on doc (do requireElement id; next) =
      if (doc.tag? id).isNone then (.error (.notAnElement id), doc) else on doc next := by
  rw [on_bind, on_requireElement]
  cases (doc.tag? id).isNone <;> rfl

/-- Work that begins with asking for a node that is not attached. -/
theorem on_detached (next : DocumentAction β) :
    on doc (do requireDetached id; next) =
      if (doc.parent? id).isSome || id = doc.root then (.error (.alreadyAttached id), doc)
      else on doc next := by
  rw [on_bind, on_requireDetached]
  cases (doc.parent? id).isSome || decide (id = doc.root) <;> rfl

end DocumentAction

namespace Document

open DocumentAction

theorem appendChild_eq (doc : Document) (p c : NodeId) :
    doc.appendChild p c =
      if (doc.tag? p).isNone then (.error (.notAnElement p), doc)
      else if (doc.parent? c).isSome || c = doc.root then (.error (.alreadyAttached c), doc)
      else (.ok (), (doc.modify p fun n => { n with children := n.children ++ [c] }).modify c
        fun n => { n with parent := some p }) := by
  rw [appendChild, on_element, on_detached, on_bind, on_change]
  rfl

theorem insertAfter_eq (doc : Document) (ref new : NodeId) :
    doc.insertAfter ref new =
      if (doc.parent? new).isSome || new = doc.root then (.error (.alreadyAttached new), doc)
      else match doc.parent? ref with
        | none => (.error (.detached ref), doc)
        | some p =>
          match (doc.children p).idxOf? ref with
          | none => (.error (.detached ref), doc)
          | some i =>
            (.ok (), (doc.modify p fun n =>
              { n with children := n.children.insertIdx (i + 1) new }).modify new
                fun n => { n with parent := some p }) := by
  rw [insertAfter, on_detached, on_bind, on_parentOf]
  cases doc.parent? ref with
  | none => rfl
  | some p =>
    dsimp only
    rw [on_get_bind]
    cases (doc.children p).idxOf? ref <;> rfl

theorem detach_eq (doc : Document) (id : NodeId) :
    doc.detach id =
      match doc.parent? id with
      | none => (.error (.detached id), doc)
      | some p =>
        (.ok (), (doc.modify p fun n => { n with children := n.children.filter (· ≠ id) }).modify id
          fun n => { n with parent := none }) := by
  rw [detach, on_bind, on_parentOf]
  cases doc.parent? id <;> rfl

theorem setTag_eq (doc : Document) (id : NodeId) (tag : String) :
    doc.setTag id tag =
      if (doc.tag? id).isNone then (.error (.notAnElement id), doc)
      else (.ok (), doc.modify id (Node.mapContent (Content.retag tag))) := by
  rw [setTag, on_element, on_change]

theorem setAttribute_eq (doc : Document) (id : NodeId) (name value : String) :
    doc.setAttribute id name value =
      if (doc.tag? id).isNone then (.error (.notAnElement id), doc)
      else (.ok (), doc.modify id
        (Node.mapContent (Content.mapAttributes (SkillCompiler.setAttribute name value)))) := by
  rw [setAttribute, on_element, on_change]

theorem attribute?_eq_none_of_tag? {doc : Document} {id : NodeId} (h : doc.tag? id = none)
    (name : String) : doc.attribute? id name = none := by
  unfold attribute? attributes
  cases hc : doc.content? id with
  | none => rfl
  | some c =>
    cases c with
    | element tag as => simp [tag?_of_content? hc] at h
    | _ => rfl

/-- The answer is the value that the attribute had; without one nothing is changed. -/
theorem removeAttribute_eq (doc : Document) (id : NodeId) (name : String) :
    doc.removeAttribute id name =
      (doc.attribute? id name,
        if (doc.attribute? id name).isNone then doc
        else doc.modify id
          (Node.mapContent (Content.mapAttributes (·.eraseP fun a => a.name = name)))) := by
  rw [removeAttribute, on_element, on_get_bind]
  cases ht : doc.tag? id with
  | none => simp [attribute?_eq_none_of_tag? ht, Except.toOption]
  | some tag => cases doc.attribute? id name <;> rfl

/-- The two changes of renaming are made if the element has the attribute. -/
theorem renameAttribute_eq (doc : Document) (id : NodeId) (old new : String) :
    doc.renameAttribute id old new =
      ((doc.attribute? id old).isSome,
        if (doc.attribute? id old).isNone then doc
        else (doc.modify id (Node.mapContent (Content.mapAttributes
            (·.filter fun a => a.name ≠ new || a.name = old)))).modify id
          (Node.mapContent (Content.mapAttributes (renameFirst old new)))) := by
  rw [renameAttribute, on_element, on_get_bind]
  cases ht : doc.tag? id with
  | none => simp [attribute?_eq_none_of_tag? ht, Except.toOption]
  | some tag => cases doc.attribute? id old <;> rfl

/-! ## Edits of one element -/

/-- A change of the content of one node. -/
def onNode (id : NodeId) (g : Content → Content) (j : NodeId) (c : Content) : Content :=
  if j = id then g c else c

end Document

/-- The attributes after `old` has taken the name `new`: one that had it gives way. -/
def renamed (old new : String) (as : List Attribute) : List Attribute :=
  if as.any fun a => a.name = old then
    renameFirst old new (as.filter fun a => a.name ≠ new || a.name = old)
  else as

namespace Document

theorem relabels_modify (doc : Document) (id : NodeId) (g : Content → Content) :
    Relabels (onNode id g) doc (doc.modify id (Node.mapContent g)) where
  root := rfl
  node? j := by
    rw [node?_modify]
    by_cases hj : id = j
    · simp only [onNode, hj, if_true]
      rfl
    · simp [onNode, hj, Ne.symm hj]

/-- A change of an element that has no effect on what the element holds. -/
theorem Relabels.onNode_of_eq {doc : Document} {id : NodeId} {g : Content → Content}
    (h : ∀ c, doc.content? id = some c → g c = c) : Relabels (onNode id g) doc doc := by
  refine (Relabels.refl doc).congr fun j c hj => ?_
  by_cases hji : j = id
  · rw [onNode, if_pos hji, h c (hji ▸ hj)]
  · rw [onNode, if_neg hji]

theorem setTag_relabels {doc : Document} {id : NodeId} {t : String} (ht : doc.tag? id = some t)
    (tag : String) :
    ∃ doc', doc.setTag id tag = (.ok (), doc') ∧
      Relabels (onNode id (Content.retag tag)) doc doc' :=
  ⟨_, by rw [setTag_eq, ht]; rfl, relabels_modify doc id (Content.retag tag)⟩

theorem setAttribute_relabels {doc : Document} {id : NodeId} {t : String}
    (ht : doc.tag? id = some t) (name value : String) :
    ∃ doc', doc.setAttribute id name value = (.ok (), doc') ∧
      Relabels (onNode id (Content.mapAttributes (SkillCompiler.setAttribute name value)))
        doc doc' :=
  ⟨_, by rw [setAttribute_eq, ht]; rfl, relabels_modify doc id _⟩

theorem attribute?_eq_lookup {doc : Document} {id : NodeId} {c : Content}
    (hc : doc.content? id = some c) (name : String) :
    doc.attribute? id name = lookupAttribute name c.attributes := by
  simp [attribute?, attributes, hc]

theorem removeAttribute_relabels (doc : Document) (id : NodeId) (name : String) :
    Relabels (onNode id (Content.mapAttributes fun as => as.eraseP fun a => a.name = name)) doc
      (doc.removeAttribute id name).2 := by
  rw [removeAttribute_eq]
  split
  · rename_i hnone
    refine Relabels.onNode_of_eq fun c hc => ?_
    rw [attribute?_eq_lookup hc, Option.isNone_iff_eq_none] at hnone
    cases c with
    | element tag as =>
      have hne : ∀ a ∈ as, ¬ a.name = name := by
        simpa [lookupAttribute, Content.attributes] using hnone
      rw [Content.mapAttributes, List.eraseP_of_forall_not fun a ha => by simpa using hne a ha]
    | _ => rfl
  · exact relabels_modify doc id _

theorem renameAttribute_relabels (doc : Document) (id : NodeId) (old new : String) :
    Relabels (onNode id (Content.mapAttributes (renamed old new))) doc
      (doc.renameAttribute id old new).2 := by
  rw [renameAttribute_eq]
  have hany : ∀ {as : List Attribute},
      (lookupAttribute old as).isNone = !as.any fun a => a.name = old := by
    intro as
    rw [Bool.eq_iff_iff]
    simp [lookupAttribute]
  split
  · rename_i hnone
    refine Relabels.onNode_of_eq fun c hc => ?_
    rw [attribute?_eq_lookup hc, hany] at hnone
    cases c with
    | element tag as => 
      rw [Content.mapAttributes, renamed, if_neg (by simpa [Content.attributes] using hnone)]
    | _ => rfl
  · rename_i hsome
    refine ((relabels_modify doc id _).trans (relabels_modify _ id _)).congr fun j c hj => ?_
    by_cases hji : j = id
    · rw [attribute?_eq_lookup (hji ▸ hj), hany] at hsome
      cases c with
      | element tag as => 
        simp only [onNode, if_pos hji, Content.mapAttributes, renamed]
        rw [if_pos (by simpa [Content.attributes] using hsome)]
      | _ => simp only [onNode, if_pos hji, Content.mapAttributes]
    · simp only [onNode, if_neg hji]

/-! ## Edits of the links -/

/-- A list of nodes with others in the place of one. -/
def splice (id : NodeId) (new : List NodeId) (ids : List NodeId) : List NodeId :=
  ids.flatMap fun x => if x = id then new else [x]

theorem splice_cons (id x : NodeId) (new ids : List NodeId) :
    splice id new (x :: ids) = (if x = id then new else [x]) ++ splice id new ids := rfl

theorem splice_of_notMem {id : NodeId} {new : List NodeId} :
    ∀ {ids : List NodeId}, id ∉ ids → splice id new ids = ids
  | [], _ => rfl
  | x :: ids, h => by
    simp only [List.mem_cons, not_or] at h
    rw [splice_cons, if_neg (Ne.symm h.1), splice_of_notMem h.2, List.singleton_append]

theorem mem_splice {id x : NodeId} {new ids : List NodeId} :
    x ∈ splice id new ids ↔ (x ∈ ids ∧ x ≠ id) ∨ (id ∈ ids ∧ x ∈ new) := by
  simp only [splice, List.mem_flatMap]
  constructor
  · rintro ⟨y, hy, hx⟩
    by_cases hyi : y = id
    · rw [if_pos hyi] at hx
      exact Or.inr ⟨hyi ▸ hy, hx⟩
    · rw [if_neg hyi, List.mem_singleton] at hx
      subst hx
      exact Or.inl ⟨hy, hyi⟩
  · rintro (⟨hx, hne⟩ | ⟨hi, hx⟩)
    · exact ⟨x, hx, by simp [hne]⟩
    · exact ⟨id, hi, by simpa using hx⟩

theorem nodup_splice {id : NodeId} {new : List NodeId} (hnew : new.Nodup) :
    ∀ {ids : List NodeId}, ids.Nodup → (∀ x ∈ new, x = id ∨ x ∉ ids) → (splice id new ids).Nodup
  | [], _, _ => by simp [splice]
  | y :: ids, h, hd => by
    obtain ⟨hy, h⟩ := List.nodup_cons.1 h
    have hd' : ∀ x ∈ new, x = id ∨ x ∉ ids := fun x hx =>
      (hd x hx).imp_right fun hn hm => hn (List.mem_cons_of_mem _ hm)
    have ih := nodup_splice hnew h hd'
    rw [splice_cons, List.nodup_append]
    by_cases hyi : y = id
    · subst hyi
      rw [if_pos rfl]
      refine ⟨hnew, ih, ?_⟩
      rintro x hx z hz rfl
      rw [splice_of_notMem hy] at hz
      rcases hd' x hx with rfl | hn
      · exact hy hz
      · exact hn hz
    · rw [if_neg hyi]
      refine ⟨by simp, ih, ?_⟩
      rintro x hx z hz rfl
      rw [List.mem_singleton] at hx
      subst hx
      rcases mem_splice.1 hz with ⟨hz, -⟩ | ⟨hi, hz⟩
      · exact hy hz
      · rcases hd x hz with rfl | hn
        · exact hyi rfl
        · exact hn (List.mem_cons_self ..)

theorem filter_ne_eq_splice (id : NodeId) :
    ∀ ids : List NodeId, ids.filter (· ≠ id) = splice id [] ids
  | [] => rfl
  | x :: ids => by
    by_cases hx : x = id
    · simp [splice_cons, hx, ← filter_ne_eq_splice id ids]
    · simp [splice_cons, hx, ← filter_ne_eq_splice id ids]

theorem insertIdx_eq_splice {ref new : NodeId} :
    ∀ {ids : List NodeId} {i : Nat}, ids.Nodup → ids.idxOf? ref = some i →
      ids.insertIdx (i + 1) new = splice ref [ref, new] ids
  | [], i, _, h => by simp at h
  | x :: ids, i, hn, h => by
    obtain ⟨hx, hn⟩ := List.nodup_cons.1 hn
    rw [List.idxOf?_cons] at h
    by_cases hxr : x = ref
    · subst hxr
      simp only [beq_self_eq_true, if_true, Option.some.injEq] at h
      subst h
      simp [splice_cons, splice_of_notMem hx]
    · simp only [beq_iff_eq, hxr, if_false, Option.map_eq_some_iff] at h
      obtain ⟨k, hk, rfl⟩ := h
      rw [List.insertIdx_succ_cons, insertIdx_eq_splice hn hk, splice_cons, if_neg hxr,
        List.singleton_append]

/-- What an edit of the links does to a node: `new` takes the place of `id` among the children, and
the parent is changed by `parent`. -/
def relink (id : NodeId) (new : List NodeId) (parent : NodeId → Option NodeId → Option NodeId)
    (j : NodeId) (n : Node) : Node :=
  ⟨n.content, parent j n.parent, splice id new n.children⟩

theorem Linked.splice_children {doc : Document} (hd : doc.Linked) {id p j : NodeId}
    (hp : doc.parent? id = some p) (hj : j ≠ p) {n : Node} (hn : doc.node? j = some n)
    (new : List NodeId) : splice id new n.children = n.children := by
  refine splice_of_notMem fun hm => hj ?_
  rw [← children_of_node? hn, hd.mem_children, hp, Option.some.injEq] at hm
  exact hm.symm

theorem detach_maps {doc : Document} (hd : doc.Linked) {id p : NodeId}
    (hp : doc.parent? id = some p) :
    ∃ doc', doc.detach id = (.ok (), doc') ∧
      Maps (relink id [] fun j q => if j = id then none else q) doc doc' := by
  rw [detach_eq, hp]
  refine ⟨_, rfl, rfl, fun j => ?_⟩
  simp only [node?_modify]
  cases hn : doc.node? j with
  | none => simp
  | some n =>
    have hs : p ≠ j → splice id [] n.children = n.children := fun hj =>
      hd.splice_children hp (Ne.symm hj) hn []
    by_cases hji : id = j
    · subst hji
      by_cases hj : p = id
      · simp [relink, ← filter_ne_eq_splice, hj]
      · simp [relink, hj, hs hj]
    · by_cases hj : p = j
      · simp [relink, ← filter_ne_eq_splice, hji, Ne.symm hji, hj]
      · simp [relink, hji, Ne.symm hji, hj, hs hj]

theorem insertAfter_maps {doc : Document} (hd : doc.Linked) {ref new p : NodeId}
    (hp : doc.parent? ref = some p) (hn : doc.parent? new = none) (hr : new ≠ doc.root) :
    ∃ doc', doc.insertAfter ref new = (.ok (), doc') ∧
      Maps (relink ref [ref, new] fun j q => if j = new then some p else q) doc doc' := by
  obtain ⟨i, hi⟩ : ∃ i, (doc.children p).idxOf? ref = some i := by
    rw [← Option.isSome_iff_exists, List.isSome_idxOf?]
    exact (hd.mem_children p ref).2 hp
  rw [insertAfter_eq, if_neg (by simp [hn, hr]), hp]
  simp only [hi]
  refine ⟨_, rfl, rfl, fun j => ?_⟩
  simp only [node?_modify]
  cases hm : doc.node? j with
  | none => simp
  | some m =>
    have hs : p ≠ j → splice ref [ref, new] m.children = m.children := fun hj =>
      hd.splice_children hp (Ne.symm hj) hm _
    have hi' : p = j → m.children.insertIdx (i + 1) new = splice ref [ref, new] m.children := by
      rintro rfl
      rw [children_of_node? hm] at hi
      exact insertIdx_eq_splice (children_of_node? hm ▸ hd.nodup p) hi
    by_cases hji : new = j
    · subst hji
      by_cases hj : p = new
      · simp [relink, hj, hi' hj]
      · simp [relink, hj, hs hj]
    · by_cases hj : p = j
      · simp [relink, hji, Ne.symm hji, hj, hi' hj]
      · simp [relink, hji, Ne.symm hji, hj, hs hj]

/-- A new element stands at the end of the table; the other nodes are as they were. -/
theorem node?_createElement (doc : Document) (tag : String) (as : List Attribute) (j : NodeId) :
    (doc.createElement tag as).1.node? j =
      if j = doc.size then some ⟨.element tag as, none, []⟩ else doc.node? j :=
  Array.getElem?_push

/-! ## The links after an edit -/

namespace Maps

variable {id : NodeId} {new : List NodeId} {parent : NodeId → Option NodeId → Option NodeId}
  {doc doc' : Document}

theorem children_relink (h : Maps (relink id new parent) doc doc') (j : NodeId) :
    doc'.children j = splice id new (doc.children j) := by
  cases hn : doc.node? j with
  | none => rw [h.children_nil hn]; simp [children, hn, splice]
  | some n => rw [h.children_eq hn, children_of_node? hn, relink]

theorem content?_relink (h : Maps (relink id new parent) doc doc') (j : NodeId) :
    doc'.content? j = doc.content? j := by
  cases hn : doc.node? j with
  | none => simp [content?, h.node?, hn]
  | some n => rw [h.content?_eq hn, content?_of_node? hn, relink]

theorem parent?_relink (h : Maps (relink id new parent) doc doc') {j : NodeId}
    (hj : j < doc.size) : doc'.parent? j = parent j (doc.parent? j) := by
  obtain ⟨n, hn⟩ := Option.isSome_iff_exists.1 (node?_isSome.2 hj)
  rw [h.parent?_eq hn, parent?_of_node? hn, relink]

theorem parent?_eq_none (h : Maps (relink id new parent) doc doc') {j : NodeId}
    (hj : ¬ j < doc.size) : doc'.parent? j = none ∧ doc.parent? j = none := by
  have hn : doc.node? j = none := by simpa using mt node?_isSome.1 hj
  simp [parent?, h.node?, hn]

end Maps

theorem detach_parent? {doc doc' : Document} {id : NodeId}
    (h : Maps (relink id [] fun j q => if j = id then none else q) doc doc') (j : NodeId) :
    doc'.parent? j = if j = id then none else doc.parent? j := by
  by_cases hj : j < doc.size
  · exact h.parent?_relink hj
  · simp [h.parent?_eq_none hj]

theorem Linked.detach {doc doc' : Document} (hd : doc.Linked) {id : NodeId}
    (h : Maps (relink id [] fun j q => if j = id then none else q) doc doc') : doc'.Linked where
  mem_children p c := by
    rw [h.children_relink, detach_parent? h, mem_splice, hd.mem_children]
    by_cases hc : c = id <;> simp [hc]
  nodup p := by
    rw [h.children_relink]
    exact nodup_splice (by simp) (hd.nodup p) (by simp)
  root_lt := by rw [h.root, h.size]; exact hd.root_lt
  root_parent := by rw [h.root, detach_parent? h, hd.root_parent, ite_self]
  isElement p hp := by
    rw [h.children_relink] at hp
    have hne : doc.children p ≠ [] := fun he => hp (by simp [he, splice])
    rw [tag?, h.content?_relink]
    exact hd.isElement p hne

theorem insertAfter_parent? {doc doc' : Document} {ref new p : NodeId} (hn : new < doc.size)
    (h : Maps (relink ref [ref, new] fun j q => if j = new then some p else q) doc doc')
    (j : NodeId) : doc'.parent? j = if j = new then some p else doc.parent? j := by
  by_cases hj : j < doc.size
  · exact h.parent?_relink hj
  · have hjn : j ≠ new := fun he => hj (he ▸ hn)
    simp [h.parent?_eq_none hj, hjn]

theorem Linked.insertAfter {doc doc' : Document} (hd : doc.Linked) {ref new p : NodeId}
    (hp : doc.parent? ref = some p) (hn : doc.parent? new = none) (hr : new ≠ doc.root)
    (hlt : new < doc.size)
    (h : Maps (relink ref [ref, new] fun j q => if j = new then some p else q) doc doc') :
    doc'.Linked where
  mem_children q c := by
    have hnr : new ≠ ref := by
      rintro rfl
      simp [hp] at hn
    rw [h.children_relink, insertAfter_parent? hlt h, mem_splice, hd.mem_children, hd.mem_children,
      hp]
    by_cases hc : c = new
    · simp [hc, hn]
    · by_cases hcr : c = ref <;> simp [hc, hcr, Ne.symm hnr, hp]
  nodup q := by
    have hnr : new ≠ ref := by
      rintro rfl
      simp [hp] at hn
    rw [h.children_relink]
    refine nodup_splice (by simpa using Ne.symm hnr) (hd.nodup q) ?_
    intro x hx
    simp only [List.mem_cons, List.not_mem_nil, or_false] at hx
    rcases hx with rfl | rfl
    · exact Or.inl rfl
    · exact Or.inr fun hm => by simp [hd.mem_children, hn] at hm
  root_lt := by rw [h.root, h.size]; exact hd.root_lt
  root_parent := by rw [h.root, insertAfter_parent? hlt h, if_neg (Ne.symm hr), hd.root_parent]
  isElement q hq := by
    rw [h.children_relink] at hq
    have hne : doc.children q ≠ [] := fun he => hq (by simp [he, splice])
    rw [tag?, h.content?_relink]
    exact hd.isElement q hne

theorem parent?_createElement (doc : Document) (tag : String) (as : List Attribute) (j : NodeId) :
    (doc.createElement tag as).1.parent? j = doc.parent? j := by
  rw [parent?, node?_createElement]
  by_cases hj : j = doc.size
  · have hn : doc.node? j = none := by simp [node?, size, hj]
    simp [hj, parent?, hj ▸ hn]
  · simp [hj, parent?]

theorem children_createElement (doc : Document) (tag : String) (as : List Attribute)
    (j : NodeId) : (doc.createElement tag as).1.children j = doc.children j := by
  rw [children, node?_createElement]
  by_cases hj : j = doc.size
  · have hn : doc.node? j = none := by simp [node?, size, hj]
    simp [hj, children, hj ▸ hn]
  · simp [hj, children]

theorem size_createElement (doc : Document) (tag : String) (as : List Attribute) :
    (doc.createElement tag as).1.size = doc.size + 1 := by
  simp [createElement, size]

theorem Linked.createElement {doc : Document} (hd : doc.Linked) (tag : String)
    (as : List Attribute) : (doc.createElement tag as).1.Linked where
  mem_children p c := by
    rw [children_createElement, parent?_createElement, hd.mem_children]
  nodup p := by rw [children_createElement]; exact hd.nodup p
  root_lt := by rw [size_createElement]; exact Nat.lt_succ_of_lt hd.root_lt
  root_parent := by rw [parent?_createElement]; exact hd.root_parent
  isElement p hp := by
    rw [children_createElement] at hp
    rw [tag?, content?, node?_createElement]
    by_cases hj : p = doc.size
    · simp [hj, Content.tag?]
    · simpa [hj, tag?, content?] using hd.isElement p hp

/-! ## The declaration -/

section Declaration

variable (doc : Document) (id : NodeId)

theorem declaration_setTag (tag : String) :
    (doc.setTag id tag).2.declaration = doc.declaration := by
  rw [setTag_eq]
  split <;> rfl

theorem declaration_setAttribute (name value : String) :
    (doc.setAttribute id name value).2.declaration = doc.declaration := by
  rw [setAttribute_eq]
  split <;> rfl

theorem declaration_detach : (doc.detach id).2.declaration = doc.declaration := by
  rw [detach_eq]
  split <;> rfl

theorem declaration_insertAfter (new : NodeId) :
    (doc.insertAfter id new).2.declaration = doc.declaration := by
  rw [insertAfter_eq]
  split
  · rfl
  · split
    · rfl
    · split <;> rfl

theorem declaration_renameAttribute (old new : String) :
    (doc.renameAttribute id old new).2.declaration = doc.declaration := by
  rw [renameAttribute_eq]
  dsimp only
  split <;> rfl

theorem declaration_removeAttribute (name : String) :
    (doc.removeAttribute id name).2.declaration = doc.declaration := by
  rw [removeAttribute_eq]
  dsimp only
  split <;> rfl

end Declaration

end Document

end SkillCompiler
