import SkillCompiler.Proofs.Document.Parse
import SkillCompiler.Proofs.Markup.Printed

/-!
# Reading a written document

Reading joins texts that stand next to each other, drops the blanks around them and what is blank
altogether: it *settles* the tokens (`reads_layout`). It does so wherever the line breaks between
the tokens are, because a line break is only ever written where no text comes before it, or at the
end. On trees the same is done by `settled`, and what is read is the settled tree (`parse_print`). A
tree whose texts stand apart is settled already (`Steady.settled_eq`), and comes back as it was.
-/

namespace SkillCompiler

namespace Markup

/-! ## Settled tokens -/

/-- What is read for characters between two pieces of markup. -/
def flush (pending : List Char) : List Token :=
  if trim pending = [] then [] else [.text (String.ofList (trim pending))]

/-- The tokens that are read for tokens that were written, after some characters. -/
def settle (pending : List Char) : List Token → List Token
  | [] => flush pending
  | .text value :: rest => settle (pending ++ value.toList) rest
  | token :: rest => flush pending ++ token :: settle [] rest

theorem settle_cons_of_ne {pending : List Char} {token : Token}
    (h : ∀ value, token ≠ .text value) (rest : List Token) :
    settle pending (token :: rest) = flush pending ++ token :: settle [] rest := by
  cases token with
  | text value => exact absurd rfl (h value)
  | _ => rfl

theorem settle_append_cons {token : Token} (h : ∀ value, token ≠ .text value) (rest : List Token) :
    ∀ (tokens : List Token) (pending : List Char),
      settle pending (tokens ++ token :: rest) = settle pending tokens ++ token :: settle [] rest
  | [], pending => settle_cons_of_ne h rest
  | first :: tokens, pending => by
    by_cases hfirst : ∃ value, first = .text value
    · obtain ⟨value, rfl⟩ := hfirst
      exact settle_append_cons h rest tokens _
    · have hne : ∀ value, first ≠ .text value := fun value he => hfirst ⟨value, he⟩
      rw [List.cons_append, settle_cons_of_ne hne, settle_cons_of_ne hne,
        settle_append_cons h rest tokens, List.append_assoc, List.cons_append]

theorem isBlank_of_trim_eq_nil {s : List Char} (h : trim s = []) : ∀ c ∈ s, isBlank c := by
  have hall : ∀ c ∈ s.dropWhile isBlank, isBlank c := by
    rw [trim, trimEnd, List.reverse_eq_nil_iff, List.dropWhile_eq_nil_iff] at h
    exact fun c hc => h c (List.mem_reverse.2 hc)
  have hnil : s.dropWhile isBlank = [] := by
    cases hs : s.dropWhile isBlank with
    | nil => rfl
    | cons c t =>
      have hhead := List.head?_dropWhile_not isBlank s
      rw [hs] at hall hhead
      have hc : isBlank c = false := hhead
      rw [hall c (List.mem_cons_self ..)] at hc
      cases hc
  exact List.dropWhile_eq_nil_iff.1 hnil

theorem isBlank_escape {s : List Char} (h : ∀ c ∈ s, isBlank c) : ∀ c ∈ escape s, isBlank c := by
  intro d hd
  obtain ⟨c, hc, hd⟩ := List.mem_flatMap.1 hd
  rw [escapeChar_of_isBlank (h c hc), List.mem_singleton] at hd
  exact hd ▸ h c hc

/-- Characters before a piece of markup or the end of the text. -/
theorem reads_flush {b r : List Char} {tokens : List Token} (hb : ∀ c ∈ b, isBlank c)
    (hr : ∀ c, r.head? = some c → c = '<') (h : Reads r tokens) (pending : List Char) :
    Reads (escape pending ++ (b ++ r)) (flush pending ++ tokens) := by
  unfold flush
  split
  · rename_i hp
    have hblank := isBlank_escape (isBlank_of_trim_eq_nil hp)
    exact h.congr (by rw [next_blank hblank, next_blank hb])
  · rename_i hp
    exact reads_cons (next_escape hp hb hr) h

/-! ## The layout -/

theorem layout_text (level : Nat) (inline : Bool) (value : String) (rest : List Token) :
    Token.layout level inline (.text value :: rest) =
      escape value.toList ++ Token.layout level true rest := rfl

/-- A piece of markup stands after a line break or right where it is. -/
theorem layout_cons {token : Token} (h : ∀ value, token ≠ .text value) (level : Nat)
    (inline : Bool) (rest : List Token) :
    ∃ b level' inline', (∀ c ∈ b, isBlank c) ∧ (inline → b = []) ∧
      Token.layout level inline (token :: rest) =
        b ++ (token.print ++ Token.layout level' inline' rest) := by
  have hbroken : ∀ level, ∀ c ∈ (if inline then [] else Token.lineBreak level), isBlank c := by
    intro level c hc
    split at hc
    · simp at hc
    · exact isBlank_lineBreak level c hc
  have hinline : ∀ level, inline → (if inline then [] else Token.lineBreak level) = [] :=
    fun level h => if_pos h
  cases token with
  | text value => exact absurd rfl (h value)
  | cdata value => exact ⟨[], level, true, by simp, fun _ => rfl, rfl⟩
  | start tag as => exact ⟨_, level + 1, false, hbroken level, hinline level, List.append_assoc ..⟩
  | close tag =>
    exact ⟨_, level - 1, false, hbroken (level - 1), hinline (level - 1), List.append_assoc ..⟩
  | _ => exact ⟨_, level, false, hbroken level, hinline level, List.append_assoc ..⟩

/-- What was laid out is read as the settled tokens. -/
theorem reads_layout {tail : List Char} (htail : ∀ c ∈ tail, isBlank c) :
    ∀ {tokens : List Token} (level : Nat) (inline : Bool) (pending : List Char),
      (∀ t ∈ tokens, t.Writable) →
      Reads (escape pending ++ (Token.layout level inline tokens ++ tail)) (settle pending tokens)
  | [], level, inline, pending, _ => by
    have hend : Reads [] [] := reads_nil rfl
    have h := reads_flush htail (by simp) hend pending
    rwa [List.append_nil, List.append_nil] at h
  | token :: rest, level, inline, pending, hw => by
    rw [List.forall_mem_cons] at hw
    by_cases htext : ∃ value, token = .text value
    · obtain ⟨value, rfl⟩ := htext
      have ih := reads_layout htail level true (pending ++ value.toList) hw.2
      rw [escape_append, List.append_assoc] at ih
      rwa [layout_text, List.append_assoc]
    · have hne : ∀ value, token ≠ .text value := fun value he => htext ⟨value, he⟩
      obtain ⟨b, level', inline', hb, -, hlayout⟩ := layout_cons hne level inline rest
      have ih : Reads (Token.layout level' inline' rest ++ tail) (settle [] rest) :=
        reads_layout htail level' inline' [] hw.2
      obtain ⟨body, hbody⟩ := print_eq_angle hw.1 hne
      rw [settle_cons_of_ne hne, hlayout, List.append_assoc, List.append_assoc]
      refine reads_flush hb ?_ (reads_cons (next_print hw.1 hne _) ih) pending
      intro c hc
      rw [hbody, List.cons_append, List.head?_cons, Option.some.injEq] at hc
      exact hc.symm

end Markup

namespace Document

open Markup

/-! ## Settled trees -/

/-- The contents whose tokens are read back. -/
def Writable : Content → Prop
  | .element tag as => WritableTag tag as
  | .text _ => True
  | .cdata value => ¬ "]]>".toList <:+: value.toList
  | .comment value => ¬ "-->".toList <:+: value.toList

instance : DecidablePred Writable
  | .element _ _ => inferInstanceAs (Decidable (WritableTag _ _))
  | .text _ => inferInstanceAs (Decidable True)
  | .cdata _ => inferInstanceAs (Decidable (¬ _ <:+: _))
  | .comment _ => inferInstanceAs (Decidable (¬ _ <:+: _))

/-- The text that is left of some characters. -/
def flushed (pending : List Char) : Forest Content :=
  if trim pending = [] then .nil else .leaf (.text (String.ofList (trim pending)))

/-- The forest that is read for a forest that was written, after some characters. -/
def settled (pending : List Char) : Forest Content → Forest Content
  | .nil => flushed pending
  | .node (.text value) _ after => settled (pending ++ value.toList) after
  | .node (.element tag as) below after =>
    flushed pending ++ .node (.element tag as) (settled [] below) (settled [] after)
  | .node content _ after => flushed pending ++ .node content .nil (settled [] after)

theorem flushed_nil : flushed [] = .nil := rfl

theorem regular_flushed (pending : List Char) : Regular (flushed pending) := by
  unfold flushed
  split
  · trivial
  · exact regular_leaf distinct_nil

theorem regular_settled :
    ∀ {f : Forest Content} (pending : List Char), (∀ c ∈ f.preorder, Writable c) →
      Regular (settled pending f)
  | .nil, pending, _ => regular_flushed pending
  | .node c below after, pending, hw => by
    simp only [Forest.preorder_node, List.mem_cons, List.mem_append] at hw
    have ha := fun pending => regular_settled (f := after) pending fun c hc => hw c (.inr (.inr hc))
    have hb := regular_settled (f := below) [] fun c hc => hw c (.inr (.inl hc))
    have hc : Writable c := hw c (.inl rfl)
    cases c with
    | text value => exact ha _
    | element tag as =>
      exact regular_append.2 ⟨regular_flushed pending, hc.2.2, by simp [Content.tag?], hb, ha []⟩
    | cdata value =>
      exact regular_append.2 ⟨regular_flushed pending, distinct_nil, fun _ => rfl, trivial, ha []⟩
    | comment value =>
      exact regular_append.2 ⟨regular_flushed pending, distinct_nil, fun _ => rfl, trivial, ha []⟩

theorem tokens_element_of_ne {below : Forest Content} (h : below ≠ .nil) (tag : String)
    (as : List Attribute) (after : Forest Content) :
    tokens (.node (.element tag as) below after) =
      .start tag as :: (tokens below ++ .close tag :: tokens after) := by
  cases below with
  | nil => exact absurd rfl h
  | node c b a => rfl

theorem writable_tokens :
    ∀ {f : Forest Content}, (∀ c ∈ f.preorder, Writable c) → ∀ t ∈ tokens f, t.Writable
  | .nil, _, t, ht => by simp [tokens] at ht
  | .node c below after, hw, t, ht => by
    simp only [Forest.preorder_node, List.mem_cons, List.mem_append] at hw
    have ha := writable_tokens (f := after) fun c hc => hw c (.inr (.inr hc))
    have hb := writable_tokens (f := below) fun c hc => hw c (.inr (.inl hc))
    have hc : Writable c := hw c (.inl rfl)
    cases c with
    | element tag as =>
      by_cases hbelow : below = .nil
      · subst hbelow
        rcases List.mem_cons.1 ht with rfl | ht
        · exact hc
        · exact ha t ht
      · rw [tokens_element_of_ne hbelow] at ht
        simp only [List.mem_cons, List.mem_append] at ht
        rcases ht with rfl | ht | rfl | ht
        · exact hc
        · exact hb t ht
        · exact hc.1
        · exact ha t ht
    | text value =>
      rcases List.mem_cons.1 ht with rfl | ht
      · trivial
      · exact ha t ht
    | cdata value =>
      rcases List.mem_cons.1 ht with rfl | ht
      · exact hc
      · exact ha t ht
    | comment value =>
      rcases List.mem_cons.1 ht with rfl | ht
      · exact hc
      · exact ha t ht

/-! ## Building -/

namespace Builder

theorem foldlM_cons_ok {b b' : Builder} {t : Token} (h : b.step t = .ok b') (ts : List Token) :
    (t :: ts).foldlM step b = ts.foldlM step b' := by
  rw [List.foldlM_cons, h]
  rfl

theorem foldlM_append_ok {b b' : Builder} {ts : List Token} (h : ts.foldlM step b = .ok b')
    (us : List Token) : (ts ++ us).foldlM step b = us.foldlM step b' := by
  rw [List.foldlM_append, h]
  rfl

theorem add_nil {b : Builder} (hb : b.frames ≠ []) : b.add .nil = b := by
  obtain ⟨frame, frames, hf⟩ := List.exists_cons_of_ne_nil hb
  rcases b with ⟨d, r, fs⟩
  cases hf
  simp [add]

theorem add_add {b : Builder} (hb : b.frames ≠ []) (f g : Forest Content) :
    (b.add f).add g = b.add (f ++ g) := by
  obtain ⟨frame, frames, hf⟩ := List.exists_cons_of_ne_nil hb
  rcases b with ⟨d, r, fs⟩
  cases hf
  simp [add, Frame.add_add]

theorem frames_add_ne {b : Builder} (hb : b.frames ≠ []) (f : Forest Content) :
    (b.add f).frames ≠ [] := by
  obtain ⟨frame, frames, hf⟩ := List.exists_cons_of_ne_nil hb
  simp [add, hf]

theorem addInside_eq {b : Builder} (hb : b.frames ≠ []) (f : Forest Content) :
    b.addInside f = b.add f := by
  simp [addInside, hb]

theorem requireRoom_eq {b : Builder} (hb : b.frames ≠ [] ∨ b.root = .nil) (tag : String) :
    b.requireRoom tag = .ok () := by
  rcases hb with hb | hb <;> simp [requireRoom, hb, Forest.isEmpty]

theorem step_start {b : Builder} (hb : b.frames ≠ [] ∨ b.root = .nil) (tag : String)
    (as : List Attribute) :
    b.step (.start tag as) = .ok { b with frames := ⟨tag, as, .nil⟩ :: b.frames } := by
  rw [step, requireRoom_eq hb]
  rfl

/-- What is put into an element that was just opened goes there, and closing it adds its tree. -/
theorem step_close {b : Builder} (tag : String) (as : List Attribute) (f : Forest Content) :
    ({ b with frames := ⟨tag, as, .nil⟩ :: b.frames }.add f).step (.close tag) =
      .ok (b.add (.node (.element tag as) f .nil)) := by
  simp [add, step, Frame.tree, Frame.add]

theorem foldlM_flush {b : Builder} (hb : b.frames ≠ []) (pending : List Char) :
    (flush pending).foldlM step b = .ok (b.add (flushed pending)) := by
  unfold flush flushed
  split
  · rw [add_nil hb]
    rfl
  · rw [List.foldlM_cons, step, addInside_eq hb]
    rfl

/-- Inside an element, the settled tokens of a forest build the settled forest. -/
theorem foldlM_settle :
    ∀ {f : Forest Content} {b : Builder} (pending : List Char), b.frames ≠ [] →
      (settle pending (tokens f)).foldlM step b = .ok (b.add (settled pending f))
  | .nil, b, pending, hb => foldlM_flush hb pending
  | .node c below after, b, pending, hb => by
    -- A piece of markup that adds one tree, and then the rest.
    have hnode : ∀ {t : Token} {g : Forest Content}, (∀ value, t ≠ .text value) →
        (b.add (flushed pending)).step t = .ok ((b.add (flushed pending)).add g) →
        (settle pending (t :: tokens after)).foldlM step b =
          .ok (b.add (flushed pending ++ (g ++ settled [] after))) := by
      intro t g ht hstep
      have hb' := frames_add_ne hb (flushed pending)
      rw [settle_cons_of_ne ht, foldlM_append_ok (foldlM_flush hb pending), foldlM_cons_ok hstep,
        foldlM_settle [] (frames_add_ne hb' g), add_add hb', add_add hb]
    have hb' := frames_add_ne hb (flushed pending)
    cases c with
    | text value => exact foldlM_settle (pending ++ value.toList) hb
    | cdata value =>
      refine hnode (g := .leaf (.cdata value)) (by simp) ?_
      rw [step, addInside_eq hb']
    | comment value =>
      refine hnode (g := .leaf (.comment value)) (by simp) ?_
      rw [step, addInside_eq hb']
    | element tag as =>
      by_cases hbelow : below = .nil
      · subst hbelow
        refine hnode (g := .leaf (.element tag as)) (by simp) ?_
        rw [step, requireRoom_eq (.inl hb')]
        rfl
      · rw [tokens_element_of_ne hbelow, settle_cons_of_ne (by simp),
          settle_append_cons (by simp), foldlM_append_ok (foldlM_flush hb pending),
          foldlM_cons_ok (step_start (.inl hb') tag as),
          foldlM_append_ok (foldlM_settle [] (by simp)), foldlM_cons_ok (step_close tag as _),
          foldlM_settle [] (frames_add_ne hb' _), add_add hb', add_add hb]
        rfl

/-- The settled tokens of a tree at an element build that tree. -/
theorem foldlM_root {b : Builder} (hb : b.frames = []) (hroot : b.root = .nil) (tag : String)
    (as : List Attribute) (below : Forest Content) :
    (settle [] (tokens (.node (.element tag as) below .nil))).foldlM step b =
      .ok { b with root := .node (.element tag as) (settled [] below) .nil } := by
  have hadd : ∀ f, b.add f = { b with root := f } := fun f => by simp [add, hb]
  by_cases hbelow : below = .nil
  · subst hbelow
    have hstep : b.step (.empty tag as) = .ok (b.add (.leaf (.element tag as))) := by
      rw [step, requireRoom_eq (.inr hroot)]
      rfl
    refine (foldlM_cons_ok hstep []).trans ?_
    rw [hadd]
    rfl
  · rw [tokens_element_of_ne hbelow, settle_cons_of_ne (by simp), settle_append_cons (by simp)]
    refine (foldlM_cons_ok (step_start (.inr hroot) tag as) _).trans ?_
    rw [foldlM_append_ok (foldlM_settle [] (by simp)), foldlM_cons_ok (step_close tag as _), hadd]
    rfl

end Builder

theorem parse_of_reads {source : String} {body : List Char} {tokens : List Token} {b : Builder}
    (hsource : source.toList = '<' :: body) (hread : Reads source.toList tokens)
    (hbuild : tokens.foldlM Builder.step {} = .ok b) (hframes : b.frames = [])
    (hroot : b.root ≠ .nil) : parse source = .ok (ofForest b.declaration b.root) := by
  have hclose : Builder.close b.root b.frames = b.root := by rw [hframes, Builder.close]
  have htext : unmarked source = source.toList := by simp [unmarked, hsource]
  rw [parse_eq_ok_iff_built, htext]
  exact ⟨tokens, b, hread, hbuild, by rwa [hclose], by rw [hclose]⟩

/-- A document is written from a piece of markup on. -/
theorem exists_tokens_eq_cons (d? : Option Declaration) (tag : String) (as : List Attribute)
    (below : Forest Content) :
    ∃ first rest, (d?.map Token.declaration).toList ++
      tokens (.node (.element tag as) below .nil) = first :: rest ∧
        ∀ value, first ≠ .text value := by
  cases d? with
  | some d => exact ⟨.declaration d, _, rfl, by simp⟩
  | none =>
    cases below with
    | nil => exact ⟨.empty tag as, _, rfl, by simp⟩
    | node c b a => exact ⟨.start tag as, _, rfl, by simp⟩

/-- What is read from a written document is its settled tree, under the same declaration. -/
theorem parse_print {doc : Document} {tag : String} {as : List Attribute} {below : Forest Content}
    (hforest : doc.forest = .node (.element tag as) below .nil)
    (hw : ∀ c ∈ doc.forest.preorder, Writable c)
    (hd : ∀ d ∈ doc.declaration, ∀ p ∈ parts d, WritableValue p.2) :
    parse doc.print = .ok (ofForest doc.declaration
      (.node (.element tag as) (settled [] below) .nil)) := by
  obtain ⟨first, rest, hts, hfirst⟩ := exists_tokens_eq_cons doc.declaration tag as below
  rw [← hforest] at hts
  have hall : ∀ t ∈ first :: rest, t.Writable := by
    intro t ht
    rw [← hts, List.mem_append] at ht
    rcases ht with ht | ht
    · rw [Option.mem_toList, Option.map_eq_some_iff] at ht
      obtain ⟨d, hdoc, rfl⟩ := ht
      exact hd d hdoc
    · exact writable_tokens hw t ht
  have hsource : doc.print.toList = Token.layout 0 true (first :: rest) ++ ['\n'] := by
    rw [print, hts, String.toList_ofList]
  have hstart : ∃ body, doc.print.toList = '<' :: body := by
    obtain ⟨b, level, inline, -, hb, hlayout⟩ := layout_cons hfirst 0 true rest
    obtain ⟨body, hbody⟩ := print_eq_angle (hall first (List.mem_cons_self ..)) hfirst
    rw [hsource, hlayout, hb rfl, hbody]
    exact ⟨_, rfl⟩
  obtain ⟨body, hbody⟩ := hstart
  have hread : Reads doc.print.toList (settle [] (first :: rest)) := by
    rw [hsource]
    exact reads_layout (List.forall_mem_singleton.2 rfl) 0 true [] hall
  have hbuild : (settle [] (first :: rest)).foldlM Builder.step {} =
      .ok ⟨doc.declaration, .node (.element tag as) (settled [] below) .nil, []⟩ := by
    rw [← hts, hforest]
    cases doc.declaration with
    | none => exact Builder.foldlM_root rfl rfl tag as below
    | some d =>
      refine (Builder.foldlM_cons_ok rfl _).trans ?_
      exact Builder.foldlM_root rfl rfl tag as below
  exact parse_of_reads hbody hread hbuild rfl (by simp)

/-! ## Texts that stand apart -/

def startsWithText : Forest Content → Bool
  | .node (.text _) _ _ => true
  | _ => false

/-- Characters that begin and end without a blank, and are some. -/
def IsTrimmed (value : String) : Prop :=
  value ≠ "" ∧ (∀ c ∈ value.toList.head?, isBlank c = false) ∧
    ∀ c ∈ value.toList.getLast?, isBlank c = false

instance (value : String) : Decidable (IsTrimmed value) :=
  decidable_of_iff (value ≠ "" ∧ value.toList.head?.all (!isBlank ·) ∧
    value.toList.getLast?.all (!isBlank ·)) (by simp [IsTrimmed, Option.all_eq_true])

/-- Only elements have anything below them, and every text is trimmed and not followed by another
text. -/
def Steady : Forest Content → Prop
  | .nil => True
  | .node (.element _ _) below after => Steady below ∧ Steady after
  | .node (.text value) below after =>
    below = .nil ∧ IsTrimmed value ∧ startsWithText after = false ∧ Steady after
  | .node _ below after => below = .nil ∧ Steady after

instance decidableSteady : DecidablePred Steady
  | .nil => inferInstanceAs (Decidable True)
  | .node (.element _ _) below after =>
    have := decidableSteady below
    have := decidableSteady after
    inferInstanceAs (Decidable (Steady below ∧ Steady after))
  | .node (.text _) _ after =>
    have := decidableSteady after
    inferInstanceAs (Decidable (_ = _ ∧ IsTrimmed _ ∧ _ = _ ∧ Steady after))
  | .node (.cdata _) _ after =>
    have := decidableSteady after
    inferInstanceAs (Decidable (_ = _ ∧ Steady after))
  | .node (.comment _) _ after =>
    have := decidableSteady after
    inferInstanceAs (Decidable (_ = _ ∧ Steady after))

theorem settled_of_not_startsWithText {f : Forest Content} (h : startsWithText f = false)
    (pending : List Char) : settled pending f = flushed pending ++ settled [] f := by
  cases f with
  | nil => exact (Forest.append_nil _).symm
  | node c below after =>
    cases c with
    | text value => simp [startsWithText] at h
    | _ => rfl

theorem flushed_of_isTrimmed {value : String} (h : IsTrimmed value) :
    flushed value.toList = .leaf (.text value) := by
  have htrim : trim value.toList = value.toList := trim_eq_self h.2.1 h.2.2
  rw [flushed, htrim, if_neg (by simpa using h.1), String.ofList_toList]

/-- A forest whose texts stand apart is read as it was written. -/
theorem Steady.settled_eq : ∀ {f : Forest Content}, Steady f → settled [] f = f
  | .nil, _ => rfl
  | .node (.element tag as) below after, h => by
    rw [settled, h.1.settled_eq, h.2.settled_eq, flushed_nil, Forest.nil_append]
  | .node (.text value) below after, h => by
    obtain ⟨rfl, hvalue, hafter, h⟩ := h
    rw [settled, List.nil_append, settled_of_not_startsWithText hafter, h.settled_eq,
      flushed_of_isTrimmed hvalue]
    rfl
  | .node (.cdata value) below after, h => by
    rw [settled, h.2.settled_eq, flushed_nil, Forest.nil_append, h.1]
    · simp
    · simp
  | .node (.comment value) below after, h => by
    rw [settled, h.2.settled_eq, flushed_nil, Forest.nil_append, h.1]
    · simp
    · simp

theorem forest_ofForest (d? : Option Declaration) {t : Forest Content} (h : IsElementTree t) :
    (ofForest d? t).forest = t := by
  rw [(hasTree_ofForest d? h).forest_eq, map_snd_number]

/-- A document whose texts stand apart comes back from what is written for it: the same tree under
the same declaration, which is written the same way again. -/
theorem parse_print_of_steady {doc : Document} {tag : String} {as : List Attribute}
    {below : Forest Content} (hforest : doc.forest = .node (.element tag as) below .nil)
    (hw : ∀ c ∈ doc.forest.preorder, Writable c) (hs : Steady doc.forest)
    (hd : ∀ d ∈ doc.declaration, ∀ p ∈ parts d, WritableValue p.2) :
    ∃ doc', parse doc.print = .ok doc' ∧ doc'.forest = doc.forest ∧
      doc'.declaration = doc.declaration ∧ doc'.print = doc.print := by
  have hparse := parse_print hforest hw hd
  have hregular := regular_settled [] hw
  rw [hforest] at hs hregular
  have hsettled : settled [] below = below := hs.1.settled_eq
  rw [hs.settled_eq] at hregular
  rw [hsettled, ← hforest] at hparse
  have hback : (ofForest doc.declaration doc.forest).forest = doc.forest :=
    forest_ofForest _ ⟨tag, as, below, hforest, hforest ▸ hregular⟩
  refine ⟨_, hparse, hback, rfl, ?_⟩
  rw [print, print, hback]
  rfl

/-- Text on both sides of a section that ends in brackets, an attribute of references only, and a
comment that ends in a dash. -/
def mixedDocument : Document :=
  ofForest (some ⟨"1.0", none, some "yes"⟩)
    (.node (.element "a" [⟨"k", "<'&\">"⟩])
      (.node (.text "x <") .nil (.node (.cdata "]]") .nil (.node (.text "&amp;") .nil
        (.node (.element "b:c" []) .nil (.leaf (.comment "-")))))) .nil)

theorem parse_print_of_steady_mixed :
    (∀ c ∈ mixedDocument.forest.preorder, Writable c) ∧ Steady mixedDocument.forest ∧
      ∃ doc', parse mixedDocument.print = .ok doc' ∧ doc'.forest = mixedDocument.forest ∧
        doc'.declaration = mixedDocument.declaration ∧ doc'.print = mixedDocument.print := by
  have hw : ∀ c ∈ mixedDocument.forest.preorder, Writable c := by decide +kernel
  have hs : Steady mixedDocument.forest := by decide +kernel
  have hd : ∀ d ∈ mixedDocument.declaration, ∀ p ∈ parts d, WritableValue p.2 := by decide +kernel
  exact ⟨hw, hs, parse_print_of_steady rfl hw hs hd⟩

end Document

end SkillCompiler
