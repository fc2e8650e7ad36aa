import SkillCompiler.Proofs.Document.Contents
import SkillCompiler.Proofs.Document.Traversal

/-!
# Complete documents

Tokens are complete if they are one element, in which every start tag has its end tag, and no tag
stands outside it (`IsComplete`). Reading asks for less, because an element that is still open when
the text ends is closed there. So a text is accepted exactly if end tags can be written behind it
that make it complete; there is one way to do that, and the document is that of the completed
tokens (`parse_eq_ok_iff_completed`).

The builder is followed one token at a time. Before the root element it has met no tag, inside it
each open element has a start tag whose end tag is still to come (`Opened`), and after it the tokens
are complete; `Reached.step` says how a token leads from one to another. The other way round,
complete tokens take the builder through these three parts (`isComplete_iff_foldlM`).

A tree lists its contents in the order of the tokens that spell it (`Spells.preorder_eq`), so the
places of a document that was read are in document order (`parse_in_document_order`).
-/

namespace SkillCompiler

namespace Token

/-- Whether a token opens or closes an element. -/
def isBracket : Token → Bool
  | start .. => true
  | close .. => true
  | _ => false

/-- Whether a token is a tag. -/
def isTag : Token → Bool
  | start .. => true
  | empty .. => true
  | close .. => true
  | _ => false

theorem isBracket_of_isTag {t : Token} (h : t.isTag = false) : t.isBracket = false := by
  cases t with
  | start tag as => exact h
  | close tag => exact h
  | _ => rfl

def declaration? : Token → Option Declaration
  | declaration d => some d
  | _ => none

/-- The tree that a token stands for by itself, if it is one. -/
def leaf (t : Token) : Forest Content :=
  match t.content? with
  | some content => .leaf content
  | none => .nil

end Token

namespace Document

open Markup

/-! ## Tokens of a forest -/

/-- The tokens are those of a forest: every start tag has its end tag, of the same name. -/
inductive Spells : List Token → Forest Content → Prop
  | nil : Spells [] .nil
  | single {t : Token} {ts : List Token} {f : Forest Content} (ht : t.isBracket = false)
    (h : Spells ts f) : Spells (t :: ts) (t.leaf ++ f)
  | element (tag : String) (as : List Attribute) {inner rest : List Token} {f g : Forest Content}
    (hf : Spells inner f) (hg : Spells rest g) :
    Spells (.start tag as :: (inner ++ .close tag :: rest)) (.node (.element tag as) f g)

/-- The tokens are those of one element. -/
inductive IsElement : List Token → Forest Content → Prop
  | empty (tag : String) (as : List Attribute) :
    IsElement [.empty tag as] (.leaf (.element tag as))
  | enclosed (tag : String) (as : List Attribute) {inner : List Token} {f : Forest Content}
    (h : Spells inner f) :
    IsElement (.start tag as :: (inner ++ [.close tag])) (.node (.element tag as) f .nil)

/-- No token is a tag. -/
def Tagless (ts : List Token) : Prop := ∀ t ∈ ts, t.isTag = false

/-- The tokens are those of one element, and of others around it that are no tags. -/
def IsComplete (ts : List Token) (tree : Forest Content) : Prop :=
  ∃ before element after, ts = before ++ (element ++ after) ∧ Tagless before ∧
    IsElement element tree ∧ Tagless after

theorem Spells.append {ts us : List Token} {f g : Forest Content} (hf : Spells ts f)
    (hg : Spells us g) : Spells (ts ++ us) (f ++ g) := by
  induction hf with
  | nil => exact hg
  | single ht _ ih =>
    rw [List.cons_append, Forest.append_assoc]
    exact .single ht ih
  | element tag as hinner _ _ ih =>
    rw [List.cons_append, List.append_assoc, List.cons_append, Forest.node_append]
    exact .element tag as hinner ih

theorem IsElement.spells {ts : List Token} {f : Forest Content} (h : IsElement ts f) :
    Spells ts f := by
  cases h with
  | empty tag as => exact .single rfl .nil
  | enclosed tag as h => exact .element tag as h .nil

theorem IsElement.ne_nil {ts : List Token} {f : Forest Content} (h : IsElement ts f) :
    f ≠ .nil := by
  cases h <;> simp [Forest.leaf]

theorem tagless_append {ts us : List Token} : Tagless (ts ++ us) ↔ Tagless ts ∧ Tagless us :=
  List.forall_mem_append

theorem tagless_singleton {t : Token} : Tagless [t] ↔ t.isTag = false :=
  List.forall_mem_singleton

/-! ## Single tokens -/

namespace Builder

variable {d? : Option Declaration} {root : Forest Content} {frame : Frame} {frames : List Frame}

/-- Outside the root element only a declaration counts. -/
theorem step_outside {t : Token} (h : t.isTag = false) :
    step ⟨d?, root, []⟩ t = .ok ⟨t.declaration?.or d?, root, []⟩ := by
  cases t with
  | start tag as => simp [Token.isTag] at h
  | empty tag as => simp [Token.isTag] at h
  | close tag => simp [Token.isTag] at h
  | _ => rfl

theorem step_inside {t : Token} (h : t.isBracket = false) :
    step ⟨d?, root, frame :: frames⟩ t =
      .ok ⟨t.declaration?.or d?, root, frame.add t.leaf :: frames⟩ := by
  cases t with
  | start tag as => simp [Token.isBracket] at h
  | close tag => simp [Token.isBracket] at h
  | declaration d => simp [step, Token.declaration?, Token.leaf, Token.content?]
  | skipped => simp [step, Token.declaration?, Token.leaf, Token.content?]
  | _ => rfl

/-- An end tag closes the innermost element, which has its name. -/
theorem exists_of_step_close {b b' : Builder} {name : String} (h : b.step (.close name) = .ok b') :
    ∃ frame frames, b.frames = frame :: frames ∧ frame.tag = name ∧
      b' = { b with frames := frames }.add frame.tree := by
  rw [step] at h
  split at h
  · simp at h
  · rename_i frame frames hframes
    split at h
    · rename_i htag
      cases h
      exact ⟨frame, frames, hframes, htag, rfl⟩
    · simp at h

theorem step_close_cons :
    step ⟨d?, root, frame :: frames⟩ (.close frame.tag) =
      .ok (add ⟨d?, root, frames⟩ frame.tree) :=
  if_pos rfl

theorem step_close_add (tag : String) (as : List Attribute) (f : Forest Content) :
    step ⟨d?, root, Frame.add ⟨tag, as, .nil⟩ f :: frames⟩ (.close tag) =
      .ok (add ⟨d?, root, frames⟩ (.node (.element tag as) f .nil)) :=
  step_close_cons

/-- There is room for an element unless the root element is closed. -/
theorem room_of_step {b b' : Builder} {t : Token} (h : b.step t = .ok b')
    (ht : t.isTag = true) : b.frames ≠ [] ∨ b.root = .nil := by
  have hroom : ∀ tag, b.requireRoom tag = .ok () → b.frames ≠ [] ∨ b.root = .nil := by
    intro tag hr
    by_contra hnot
    rw [not_or, not_not] at hnot
    cases hroot : b.root with
    | nil => exact hnot.2 hroot
    | node c below after => simp [requireRoom, hnot.1, hroot, Forest.isEmpty] at hr
  cases t with
  | start tag as =>
    obtain ⟨u, hr, -⟩ := exists_of_bind_eq_ok h
    exact hroom tag hr
  | empty tag as =>
    obtain ⟨u, hr, -⟩ := exists_of_bind_eq_ok h
    exact hroom tag hr
  | close tag =>
    obtain ⟨frame, frames, hframes, -⟩ := exists_of_step_close h
    exact Or.inl (by simp [hframes])
  | _ => simp [Token.isTag] at ht

theorem declaration_step {b b' : Builder} {t : Token} (h : b.step t = .ok b') :
    b'.declaration = t.declaration?.or b.declaration := by
  have hadd : ∀ (b : Builder) f, (b.add f).declaration = b.declaration := by
    intro b f
    unfold add
    split <;> rfl
  have hinside : ∀ f, (b.addInside f).declaration = b.declaration := by
    intro f
    unfold addInside
    split
    · rfl
    · exact hadd b f
  cases t with
  | start tag as =>
    obtain ⟨-, -, h⟩ := exists_of_bind_eq_ok h
    cases h
    rfl
  | empty tag as =>
    obtain ⟨-, -, h⟩ := exists_of_bind_eq_ok h
    cases h
    exact hadd b _
  | close name =>
    obtain ⟨frame, frames, -, -, rfl⟩ := exists_of_step_close h
    exact hadd _ _
  | text value => cases h; exact hinside _
  | cdata value => cases h; exact hinside _
  | comment value => cases h; exact hinside _
  | declaration d => cases h; rfl
  | skipped => cases h; rfl

/-- The last declaration counts. -/
theorem declaration_foldlM {ts : List Token} :
    ∀ {b b' : Builder}, ts.foldlM step b = .ok b' →
      b'.declaration = (ts.filterMap Token.declaration?).getLast?.or b.declaration := by
  induction ts with
  | nil =>
    intro b b' h
    cases h
    rfl
  | cons t ts ih =>
    intro b b' h
    rw [List.foldlM_cons] at h
    obtain ⟨b₁, hstep, h⟩ := exists_of_bind_eq_ok h
    rw [ih h, declaration_step hstep, List.filterMap_cons]
    cases t.declaration? with
    | none => rfl
    | some d =>
      rw [List.getLast?_cons]
      cases (ts.filterMap Token.declaration?).getLast? <;> rfl

/-! ## From tokens to trees -/

/-- Each open element has a start tag, and so far inside it the tokens of a forest. -/
inductive Opened : List Token → List Frame → Prop
  | outside {ts : List Token} (h : Tagless ts) : Opened ts []
  | inside (tag : String) (as : List Attribute) {ts inner : List Token} {f : Forest Content}
    {frames : List Frame} (h : Opened ts frames) (hf : Spells inner f) :
    Opened (ts ++ .start tag as :: inner) (⟨tag, as, f⟩ :: frames)

/-- What a builder holds after some tokens: open elements or the root element. -/
def Reached (ts : List Token) (b : Builder) : Prop :=
  b.root = .nil ∧ Opened ts b.frames ∨ b.frames = [] ∧ IsComplete ts b.root

theorem Opened.add {ts us : List Token} {g : Forest Content}
    (h : Opened ts (frame :: frames)) (hg : Spells us g) :
    Opened (ts ++ us) (frame.add g :: frames) := by
  cases h with
  | inside tag as h hf =>
    rw [List.append_assoc, List.cons_append]
    exact .inside tag as h (hf.append hg)

/-- One element more is the root, or stands in the innermost open element. -/
theorem Opened.reached_add {ts us : List Token} {g : Forest Content}
    (h : Opened ts frames) (hg : IsElement us g) :
    Reached (ts ++ us) (Builder.add ⟨d?, .nil, frames⟩ g) := by
  cases frames with
  | nil =>
    cases h with
    | outside h =>
      exact Or.inr ⟨rfl, ts, us, [], by simp, h, hg, by simp [Tagless]⟩
  | cons frame frames => exact Or.inl ⟨rfl, h.add hg.spells⟩

theorem Reached.step {ts : List Token} {b b' : Builder} {t : Token} (h : Reached ts b)
    (hs : b.step t = .ok b') : Reached (ts ++ [t]) b' := by
  rcases b with ⟨d?, root, frames⟩
  by_cases ht : t.isTag = true
  · have hroom := room_of_step hs ht
    obtain ⟨rfl, hopen⟩ : root = .nil ∧ Opened ts frames := by
      rcases h with h | ⟨hframes, before, element, after, -, -, helement, -⟩
      · exact h
      · rcases hroom with hroom | hroom
        · exact absurd hframes hroom
        · exact absurd hroom helement.ne_nil
    cases t with
    | start tag as =>
      rw [step_start (Or.inr rfl)] at hs
      cases hs
      exact Or.inl ⟨rfl, .inside tag as hopen .nil⟩
    | empty tag as =>
      obtain ⟨-, -, hs⟩ := exists_of_bind_eq_ok hs
      cases hs
      exact hopen.reached_add (.empty tag as)
    | close name =>
      obtain ⟨frame, frames, rfl, rfl, rfl⟩ := exists_of_step_close hs
      cases hopen with
      | inside tag as h hf =>
        rw [List.append_assoc]
        exact h.reached_add (.enclosed tag as hf)
    | _ => simp [Token.isTag] at ht
  · rw [Bool.not_eq_true] at ht
    cases frames with
    | nil =>
      rw [step_outside ht] at hs
      cases hs
      rcases h with ⟨hroot, hopen⟩ | ⟨-, before, element, after, rfl, hbefore, helement, hafter⟩
      · cases hopen with
        | outside h =>
          exact Or.inl ⟨hroot, .outside (tagless_append.2 ⟨h, tagless_singleton.2 ht⟩)⟩
      · exact Or.inr ⟨rfl, before, element, after ++ [t], by simp, hbefore, helement,
          tagless_append.2 ⟨hafter, tagless_singleton.2 ht⟩⟩
    | cons frame frames =>
      have hbracket := Token.isBracket_of_isTag ht
      rw [step_inside hbracket] at hs
      cases hs
      rcases h with ⟨hroot, hopen⟩ | ⟨hframes, -⟩
      · have hadd := hopen.add (.single hbracket .nil)
        rw [Forest.append_nil] at hadd
        exact Or.inl ⟨hroot, hadd⟩
      · cases hframes

theorem Reached.foldlM {us : List Token} :
    ∀ {ts : List Token} {b b' : Builder}, Reached ts b → us.foldlM Builder.step b = .ok b' →
      Reached (ts ++ us) b' := by
  induction us with
  | nil =>
    intro ts b b' h hf
    cases hf
    rwa [List.append_nil]
  | cons u us ih =>
    intro ts b b' h hf
    rw [List.foldlM_cons] at hf
    obtain ⟨b₁, hs, hf⟩ := exists_of_bind_eq_ok hf
    rw [← List.singleton_append, ← List.append_assoc]
    exact ih (h.step hs) hf

/-! ## From trees to tokens -/

theorem foldlM_tagless {ts : List Token} (h : Tagless ts) (root : Forest Content) :
    ∀ d? : Option Declaration, ∃ d', ts.foldlM step ⟨d?, root, []⟩ = .ok ⟨d', root, []⟩ := by
  induction ts with
  | nil => exact fun d? => ⟨d?, rfl⟩
  | cons t ts ih =>
    intro d?
    rw [Tagless, List.forall_mem_cons] at h
    rw [foldlM_cons_ok (step_outside h.1)]
    exact ih h.2 _

/-- Inside an element, the tokens of a forest put it in. -/
theorem foldlM_spells {ts : List Token} {f : Forest Content} (h : Spells ts f)
    (root : Forest Content) :
    ∀ (d? : Option Declaration) (frame : Frame) (frames : List Frame),
      ∃ d', ts.foldlM step ⟨d?, root, frame :: frames⟩ =
        .ok ⟨d', root, frame.add f :: frames⟩ := by
  induction h with
  | nil =>
    intro d? frame frames
    exact ⟨d?, by rw [Frame.add_nil]; rfl⟩
  | single ht h ih =>
    intro d? frame frames
    rw [foldlM_cons_ok (step_inside ht), ← Frame.add_add]
    exact ih _ _ _
  | element tag as hf hg ihf ihg =>
    intro d? frame frames
    obtain ⟨d₁, hinner⟩ := ihf d? ⟨tag, as, .nil⟩ (frame :: frames)
    rw [foldlM_cons_ok (step_start (Or.inl (by simp)) tag as), foldlM_append_ok hinner,
      foldlM_cons_ok (step_close_add tag as _)]
    obtain ⟨d₂, hrest⟩ := ihg d₁ (frame.add (.node (.element tag as) _ .nil)) frames
    refine ⟨d₂, hrest.trans ?_⟩
    rw [Frame.add_add]
    rfl

theorem foldlM_element {ts : List Token} {tree : Forest Content} (h : IsElement ts tree)
    (d? : Option Declaration) : ∃ d', ts.foldlM step ⟨d?, .nil, []⟩ = .ok ⟨d', tree, []⟩ := by
  cases h with
  | empty tag as => exact ⟨d?, rfl⟩
  | enclosed tag as h =>
    obtain ⟨d', hinner⟩ := foldlM_spells h .nil d? ⟨tag, as, .nil⟩ []
    rw [foldlM_cons_ok (step_start (Or.inr rfl) tag as), foldlM_append_ok hinner,
      foldlM_cons_ok (step_close_add tag as _)]
    exact ⟨d', rfl⟩

/-- The tokens from which the builder makes a root element and leaves none open are the complete
ones. -/
theorem isComplete_iff_foldlM {ts : List Token} {tree : Forest Content} :
    IsComplete ts tree ↔ tree ≠ .nil ∧ ∃ d?, ts.foldlM step {} = .ok ⟨d?, tree, []⟩ := by
  constructor
  · rintro ⟨before, element, after, rfl, hbefore, helement, hafter⟩
    refine ⟨helement.ne_nil, ?_⟩
    obtain ⟨d₁, h₁⟩ := foldlM_tagless hbefore .nil none
    obtain ⟨d₂, h₂⟩ := foldlM_element helement d₁
    rw [foldlM_append_ok h₁, foldlM_append_ok h₂]
    exact foldlM_tagless hafter tree d₂
  · rintro ⟨hne, d?, h⟩
    have hstart : Reached [] {} := Or.inl ⟨rfl, .outside (by simp [Tagless])⟩
    rcases hstart.foldlM h with ⟨hroot, -⟩ | ⟨-, hcomplete⟩
    · exact absurd hroot hne
    · exact hcomplete

/-! ## Closing what is open -/

theorem map_tag_add (b : Builder) (f : Forest Content) :
    (b.add f).frames.map Frame.tag = b.frames.map Frame.tag := by
  unfold add
  split
  · rfl
  · rename_i hframes
    simp [hframes]

/-- The end tags of the open elements close them. -/
theorem foldlM_close (d? : Option Declaration) (root : Forest Content) (frames : List Frame) :
    (frames.map fun f => Token.close f.tag).foldlM step ⟨d?, root, frames⟩ =
      .ok ⟨d?, close root frames, []⟩ := by
  fun_induction close root frames with
  | case1 => rfl
  | case2 frame => exact (foldlM_cons_ok step_close_cons []).trans rfl
  | case3 frame outer frames ih =>
    rw [List.map_cons, foldlM_cons_ok step_close_cons]
    exact ih

/-- No other end tags do. -/
theorem eq_map_tag_of_foldlM {missing : List String} :
    ∀ {b b' : Builder}, (missing.map Token.close).foldlM step b = .ok b' → b'.frames = [] →
      missing = b.frames.map Frame.tag := by
  induction missing with
  | nil =>
    intro b b' h hb'
    cases h
    simp [hb']
  | cons name missing ih =>
    intro b b' h hb'
    rw [List.map_cons, List.foldlM_cons] at h
    obtain ⟨b₁, hs, h⟩ := exists_of_bind_eq_ok h
    obtain ⟨frame, frames, hframes, rfl, rfl⟩ := exists_of_step_close hs
    rw [hframes, List.map_cons, ih h hb', map_tag_add]

/-- There is one way to complete tokens that could be put together. -/
theorem isComplete_append_iff {ts : List Token} {b : Builder} (hb : ts.foldlM step {} = .ok b)
    (missing : List String) (tree : Forest Content) :
    IsComplete (ts ++ missing.map .close) tree ↔
      missing = b.frames.map Frame.tag ∧ tree = close b.root b.frames ∧ tree ≠ .nil := by
  rcases b with ⟨d?, root, frames⟩
  have hclose : ((frames.map Frame.tag).map Token.close).foldlM step ⟨d?, root, frames⟩ =
      .ok ⟨d?, close root frames, []⟩ := by
    rw [List.map_map]
    exact foldlM_close d? root frames
  rw [isComplete_iff_foldlM, foldlM_append_ok hb]
  constructor
  · rintro ⟨hne, d', h⟩
    obtain rfl := eq_map_tag_of_foldlM h rfl
    rw [hclose] at h
    cases h
    exact ⟨rfl, rfl, hne⟩
  · rintro ⟨rfl, rfl, hne⟩
    exact ⟨hne, d?, hclose⟩

end Builder

/-! ## What is read -/

/-- A text is accepted exactly if it is read to its end and end tags behind its last token make the
tokens complete. There is one way to do that, and the document is the tree of the tokens that are
then complete, under the last declaration. -/
theorem parse_eq_ok_iff_completed (source : String) (doc : Document) :
    parse source = .ok doc ↔
      ∃ tokens missing tree, Reads (unmarked source) tokens ∧
        (∀ (names : List String) (t : Forest Content),
          IsComplete (tokens ++ names.map .close) t ↔ names = missing ∧ t = tree) ∧
        doc = ofForest (tokens.filterMap Token.declaration?).getLast? tree := by
  rw [parse_eq_ok_iff_built]
  constructor
  · rintro ⟨tokens, built, hread, hb, hne, rfl⟩
    refine ⟨tokens, built.frames.map Frame.tag, Builder.close built.root built.frames, hread,
      fun names t => ?_, ?_⟩
    · rw [Builder.isComplete_append_iff hb]
      exact ⟨fun h => ⟨h.1, h.2.1⟩, fun h => ⟨h.1, h.2, h.2 ▸ hne⟩⟩
    · rw [Builder.declaration_foldlM hb, Option.or_none]
  · rintro ⟨tokens, missing, tree, hread, hcomplete, rfl⟩
    have hself := (hcomplete missing tree).2 ⟨rfl, rfl⟩
    obtain ⟨hne, d?, hfold⟩ := Builder.isComplete_iff_foldlM.1 hself
    rw [List.foldlM_append] at hfold
    obtain ⟨built, hb, -⟩ := exists_of_bind_eq_ok hfold
    obtain ⟨-, htree, -⟩ := (Builder.isComplete_append_iff hb missing tree).1 hself
    refine ⟨tokens, built, hread, hb, htree ▸ hne, ?_⟩
    rw [htree, Builder.declaration_foldlM hb, Option.or_none]

/-- A start tag alone is accepted, as what it opens; it is not complete. -/
theorem parse_unclosed :
    parse "<a>" = .ok (ofForest none (.leaf (.element "a" []))) ∧
      Reads (unmarked "<a>") [.start "a" []] ∧ ∀ tree, ¬ IsComplete [.start "a" []] tree := by
  refine ⟨by decide +kernel, ⟨by decide +kernel, by decide +kernel⟩, fun tree h => ?_⟩
  obtain ⟨-, d?, hfold⟩ := Builder.isComplete_iff_foldlM.1 h
  cases hfold

/-! ## Document order -/

theorem Spells.preorder_eq {ts : List Token} {f : Forest Content} (h : Spells ts f) :
    f.preorder = ts.filterMap Token.content? := by
  induction h with
  | nil => rfl
  | @single t ts f ht _ ih =>
    rw [Forest.preorder_append, ih, List.filterMap_cons, Token.leaf]
    cases t.content? <;> rfl
  | element tag as _ _ ihf ihg =>
    rw [Forest.preorder_node, ihf, ihg]
    simp [List.filterMap_cons, Token.content?]

theorem exists_isComplete_of_parse {source : String} {doc : Document}
    (h : parse source = .ok doc) :
    ∃ (tokens : List Token) (missing : List String), Reads (unmarked source) tokens ∧
      IsComplete (tokens ++ missing.map .close) doc.forest := by
  obtain ⟨tokens, built, hread, hb, htree, rfl⟩ := exists_built_of_parse h
  rw [forest_ofForest _ htree]
  obtain ⟨tag, as, below, heq, -⟩ := htree
  refine ⟨tokens, built.frames.map Frame.tag, hread, ?_⟩
  exact (Builder.isComplete_append_iff hb _ _).2 ⟨rfl, rfl, by simp [heq]⟩

/-- The nodes below the root of a laid out tree are all the others, in the order of their places. -/
theorem descendants_ofForest (d? : Option Declaration) {t : Forest Content}
    (h : IsElementTree t) :
    (ofForest d? t).descendants 0 = List.range' 1 ((ofForest d? t).size - 1) := by
  have htree := hasTree_ofForest d? h
  have hsize : (ofForest d? t).size = t.size := by simp [ofForest, size, length_layOut]
  obtain ⟨tag, as, below, rfl, -⟩ := h
  have hkeys : (number 1 below).keys.Nodup := by
    rw [keys_number]
    exact List.nodup_range'
  have hbelow := Shows.descendants htree.shows hkeys
  rw [keys_number] at hbelow
  rw [hsize, hbelow]
  simp

/-- A document that was read has its nodes in document order: the root at the place 0, the nodes
below it from 1 on, and no other nodes. They are the contents of the tokens of the root element;
what stands outside it has no place. -/
theorem parse_in_document_order {source : String} {doc : Document} (h : parse source = .ok doc) :
    doc.root = 0 ∧ (∀ id, id < doc.size → doc.isAttached id = true) ∧
      doc.descendants doc.root = List.range' 1 (doc.size - 1) ∧
      ∃ (tokens : List Token) (missing : List String) (before element after : List Token),
        Reads (unmarked source) tokens ∧
        tokens ++ missing.map .close = before ++ (element ++ after) ∧
        Tagless before ∧ IsElement element doc.forest ∧ Tagless after ∧
        ∀ id, doc.content? id = (element.filterMap Token.content?)[id]? := by
  obtain ⟨d?, t, htree, rfl⟩ := exists_ofForest_of_parse h
  have hdescendants := descendants_ofForest d? htree
  have hlinked := (hasTree_ofForest d? htree).linked
  refine ⟨rfl, fun id hid => ?_, hdescendants, ?_⟩
  · rw [hlinked.isAttached_iff]
    by_cases hroot : id = 0
    · exact hroot ▸ .root
    · have hmem : id ∈ (ofForest d? t).descendants (ofForest d? t).root := by
        rw [show (ofForest d? t).root = 0 from rfl, hdescendants, List.mem_range'_1]
        omega
      exact (hlinked.mem_descendants_root.1 hmem).2
  · obtain ⟨tokens, missing, hread, before, element, after, heq, hbefore, helement, hafter⟩ :=
      exists_isComplete_of_parse h
    refine ⟨tokens, missing, before, element, after, hread, heq, hbefore, helement, hafter,
      fun id => ?_⟩
    rw [content?_ofForest, ← helement.spells.preorder_eq, forest_ofForest _ htree]

/-- An element around a text and an element. -/
def twoInside : Document :=
  ofForest none
    (.node (.element "a" []) (.node (.text "t") .nil (.leaf (.element "b" []))) .nil)

/-- A comment before the root element and a text after it are not counted. -/
theorem parse_in_document_order_outside :
    parse "<!--x--><a>t<b/></a>u" = .ok twoInside ∧ twoInside.size = 3 ∧ twoInside.root = 0 ∧
      (∀ id, id < twoInside.size → twoInside.isAttached id = true) ∧
      twoInside.descendants twoInside.root = [1, 2] := by
  have hparse : parse "<!--x--><a>t<b/></a>u" = .ok twoInside := by decide +kernel
  obtain ⟨hroot, hattached, hdescendants, -⟩ := parse_in_document_order hparse
  exact ⟨hparse, rfl, hroot, hattached, hdescendants⟩

end Document

end SkillCompiler
