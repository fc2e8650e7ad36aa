import SkillCompiler.Markup.Scan
import SkillCompiler.Proofs.Text.Search

/-!
# What is read

`IsRead` says what a token can be that was read from a text, and `scan_isRead` that every token of a
scan is of that kind. No element has two attributes with one name, and what is cut off at a mark
does not hold that mark: CDATA, a comment, and the values of a declaration (`not_infix_parts`).
`Reads` says that a text is read to its end, as a list of tokens.
-/

namespace SkillCompiler

/-- No name occurs twice. -/
def Distinct (as : List Attribute) : Prop := (as.map Attribute.name).Nodup

namespace Markup

/-! ## Attribute names -/

theorem readAttribute_fresh {n : Nat} {seen : List RawAttribute} {s r : List Char}
    {a : RawAttribute} (h : readAttribute true n seen s = .ok (some (a, r))) :
    ∀ b ∈ seen, b.name ≠ a.name := by
  unfold readAttribute at h
  split at h
  · simp at h
  simp only at h
  split at h
  · split at h
    · simp at h
    rename_i hseen
    split at h
    · simp at h
    split at h
    · split at h
      · simp only [Except.ok.injEq, Option.some.injEq, Prod.mk.injEq] at h
        simp only [if_true, List.find?_eq_none, decide_eq_true_eq] at hseen
        rw [← h.1]
        exact hseen
      · simp at h
    · simp at h
  · simp at h

theorem readAttributes_distinct (n : Nat) (seen : List RawAttribute) (s : List Char) :
    ∀ {as : List Attribute}, readAttributes n seen s = .ok as →
      Distinct as ∧ ∀ a ∈ seen, ∀ b ∈ as, String.ofList a.name ≠ b.name := by
  fun_induction readAttributes n seen s with
  | case1 seen s fault hr => simp
  | case2 seen s hr =>
    intro as h
    simp only [Except.ok.injEq] at h
    simp [← h, Distinct]
  | case3 seen s a rest hr ih =>
    intro as h
    rcases hv : unescape a.value with f | value <;> rw [hv] at h
    · simp [bind, Except.bind] at h
    rcases hm : readAttributes n (a :: seen) rest with f | more <;> rw [hm] at h
    · simp [bind, Except.bind] at h
    simp only [bind, Except.bind, pure, Except.pure, Except.ok.injEq] at h
    obtain ⟨hd, hseen⟩ := ih hm
    subst h
    refine ⟨?_, ?_⟩
    · simp only [Distinct, List.map_cons, List.nodup_cons, List.mem_map, not_exists, not_and]
      exact ⟨fun b hb he => hseen a (by simp) b hb he.symm, hd⟩
    · intro b hb c hc
      simp only [List.mem_cons] at hc
      rcases hc with rfl | hc
      · exact fun he => readAttribute_fresh hr b hb (String.ofList_injective he)
      · exact hseen b (by simp [hb]) c hc

theorem distinct_nil : Distinct [] := by simp [Distinct]

/-! ## Tokens -/

/-- The tokens that can be read. -/
inductive IsRead : Token → Prop
  | declaration {content : List Char} (h : ¬ "?>".toList <:+: content) :
    IsRead (.declaration (declarationOf content))
  | start (tag : String) {as : List Attribute} (h : Distinct as) : IsRead (.start tag as)
  | empty (tag : String) {as : List Attribute} (h : Distinct as) : IsRead (.empty tag as)
  | close (tag : String) : IsRead (.close tag)
  | text (value : String) : IsRead (.text value)
  | cdata {value : String} (h : ¬ "]]>".toList <:+: value.toList) : IsRead (.cdata value)
  | comment {value : String} (h : ¬ "-->".toList <:+: value.toList) : IsRead (.comment value)
  | skipped : IsRead .skipped

variable {s r : List Char} {t : Token}

theorem startTag_isRead (h : startTag s = .ok (t, r)) : IsRead t := by
  unfold startTag at h
  split at h
  · simp at h
  simp only at h
  split at h
  · simp at h
  · rename_i as ha
    have hd := (readAttributes_distinct _ _ _ ha).1
    simp only [Except.ok.injEq, Prod.mk.injEq] at h
    rw [← h.1]
    split
    · exact .empty _ hd
    · exact .start _ hd

theorem comment_isRead (h : comment s = .ok (t, r)) : IsRead t := by
  unfold comment at h
  split at h
  · rename_i value rest hcut
    simp only [Except.ok.injEq, Prod.mk.injEq] at h
    have hvalue : ¬ "-->".toList <:+: value := Text.cut?_leftmost (by decide) hcut
    rw [← h.1]
    exact .comment (by rwa [String.toList_ofList (l := value)])
  · simp at h

theorem cdata_isRead (h : cdata s = .ok (t, r)) : IsRead t := by
  unfold cdata at h
  split at h
  · rename_i value rest hcut
    simp only [Except.ok.injEq, Prod.mk.injEq] at h
    have hvalue : ¬ "]]>".toList <:+: value := Text.cut?_leftmost (by decide) hcut
    rw [← h.1]
    exact .cdata (by rwa [String.toList_ofList (l := value)])
  · simp at h

theorem doctype_isRead (h : doctype s = .ok (t, r)) : IsRead t := by
  unfold doctype at h
  split at h
  · simp at h
  split at h
  · split at h
    · simp at h
    · simp only [Except.ok.injEq, Prod.mk.injEq] at h
      rw [← h.1]
      exact .skipped
  · simp at h

theorem bang_isRead (h : bang s = .ok (t, r)) : IsRead t := by
  unfold bang at h
  split at h
  · split at h
    · exact comment_isRead h
    · simp at h
  · split at h
    · exact cdata_isRead h
    · simp at h
  · exact doctype_isRead h
  · exact doctype_isRead h
  · simp at h

theorem instruction_isRead (h : instruction s = .ok (t, r)) : IsRead t := by
  unfold instruction at h
  split at h
  · simp at h
  split at h
  · simp at h
  rename_i content rest hcut
  have hdeclaration : IsRead (.declaration (declarationOf content)) :=
    .declaration (Text.cut?_leftmost (by decide) hcut)
  split at h
  · simp only [Except.ok.injEq, Prod.mk.injEq] at h
    exact h.1 ▸ hdeclaration
  · split at h
    · simp only [Except.ok.injEq, Prod.mk.injEq] at h
      exact h.1 ▸ hdeclaration
    · simp only [Except.ok.injEq, Prod.mk.injEq] at h
      exact h.1 ▸ .skipped
  · simp only [Except.ok.injEq, Prod.mk.injEq] at h
    exact h.1 ▸ .skipped

theorem closeTag_isRead (h : closeTag s = .ok (t, r)) : IsRead t := by
  unfold closeTag at h
  split at h
  · simp at h
  · simp only [Except.ok.injEq, Prod.mk.injEq] at h
    exact h.1 ▸ .close _

theorem markup_isRead (h : markup s = .ok (t, r)) : IsRead t := by
  unfold markup at h
  split at h
  · simp at h
  · exact bang_isRead h
  · exact instruction_isRead h
  · exact closeTag_isRead h
  · exact startTag_isRead h

theorem next_isRead (h : next s = .ok (some (t, r))) : IsRead t := by
  unfold next at h
  split at h
  · simp at h
  · rename_i body hb
    rcases hm : markup body with f | ⟨t', r'⟩ <;> rw [hm] at h <;>
      simp only [Except.map, Except.ok.injEq, Option.some.injEq, Prod.mk.injEq, reduceCtorEq] at h
    exact h.1 ▸ markup_isRead hm
  · unfold characters at h
    split at h
    · simp [Except.map] at h
    · simp only [Except.map, Except.ok.injEq, Option.some.injEq, Prod.mk.injEq] at h
      exact h.1 ▸ .text _

/-- Every token of a scan has been read. -/
theorem scan_isRead (text : List Char) :
    ∀ t ∈ (scan text).lexemes.map Lexeme.token, IsRead t := by
  fun_induction scan text with
  | case1 text fault hn => simp
  | case2 text hn => simp
  | case3 text token rest hn more ih =>
    rw [List.map_cons, List.forall_mem_cons]
    exact ⟨next_isRead hn, ih⟩

/-! ## Texts that are read to their end -/

/-- All of the text is read, as these tokens. -/
def Reads (text : List Char) (tokens : List Token) : Prop :=
  (scan text).fault = none ∧ (scan text).lexemes.map Lexeme.token = tokens

theorem reads_nil {text : List Char} (h : next text = .ok none) : Reads text [] := by
  unfold Reads
  rw [scan]
  split
  · rename_i heq
    cases h.symm.trans heq
  · exact ⟨rfl, rfl⟩
  · rename_i heq
    cases h.symm.trans heq

theorem reads_cons {text rest : List Char} {token : Token} {tokens : List Token}
    (h : next text = .ok (some (token, rest))) (hr : Reads rest tokens) :
    Reads text (token :: tokens) := by
  unfold Reads
  rw [scan]
  split
  · rename_i heq
    cases h.symm.trans heq
  · rename_i heq
    cases h.symm.trans heq
  · rename_i heq
    cases h.symm.trans heq
    exact ⟨hr.1, congrArg (token :: ·) hr.2⟩

theorem Reads.isRead {text : List Char} {tokens : List Token} (h : Reads text tokens) :
    ∀ t ∈ tokens, IsRead t :=
  h.2 ▸ scan_isRead text

/-- Texts with the same first token and the same rest are read alike. -/
theorem Reads.congr {text text' : List Char} {tokens : List Token} (h : next text' = next text)
    (hr : Reads text tokens) : Reads text' tokens := by
  unfold Reads at hr
  rw [scan] at hr
  split at hr
  · exact absurd hr.1 (by simp)
  · rename_i heq
    exact hr.2 ▸ reads_nil (h.trans heq)
  · rename_i token rest heq
    exact hr.2 ▸ reads_cons (h.trans heq) ⟨hr.1, rfl⟩

/-! ## The values of a declaration -/

/-- The parts of a declaration that are there, in the order they are written. -/
def parts (d : Declaration) : List (String × String) :=
  ("version", d.version) :: (d.encoding.toList.map ("encoding", ·) ++
    d.standalone.toList.map ("standalone", ·))

theorem quoted?_eq_some {q : Char} {s v r : List Char} (h : quoted? q s = some (v, r)) :
    s = v ++ q :: r := by
  induction s generalizing v with
  | nil => simp [quoted?] at h
  | cons c s ih =>
    rw [quoted?] at h
    split at h
    · rename_i hc
      simp only [Option.some.injEq, Prod.mk.injEq] at h
      rw [← h.1, ← h.2, hc, List.nil_append]
    · simp only [Option.map_eq_some_iff, Prod.mk.injEq] at h
      obtain ⟨⟨v', r'⟩, h', rfl, rfl⟩ := h
      rw [ih h', List.cons_append]

/-- An attribute's value stands in the text, and so does what is left after it. -/
theorem isInfix_of_readAttribute {unique : Bool} {n : Nat} {seen : List RawAttribute}
    {s r : List Char} {a : RawAttribute} (h : readAttribute unique n seen s = .ok (some (a, r))) :
    a.value <:+: s ∧ r <:+ s := by
  unfold readAttribute at h
  split at h
  · simp at h
  rename_i c body hs
  simp only at h
  split at h
  · rename_i body' hb
    split at h
    · simp at h
    split at h
    · simp at h
    rename_i quote body'' hq
    split at h
    · split at h
      · rename_i value rest hv
        simp only [Except.ok.injEq, Option.some.injEq, Prod.mk.injEq] at h
        have hquoted : body'' = value ++ quote :: rest := quoted?_eq_some hv
        have hsuffix : body'' <:+ s := by
          have h1 : body'' <:+ body' := (List.suffix_cons ..).trans (hq ▸ List.dropWhile_suffix _)
          have h2 : body' <:+ body := (List.suffix_cons ..).trans
            (hb ▸ (List.dropWhile_suffix _).trans (List.dropWhile_suffix _))
          have h3 : body <:+ s := (List.suffix_cons ..).trans (hs ▸ List.dropWhile_suffix _)
          exact (h1.trans h2).trans h3
        rw [← h.1, ← h.2]
        refine ⟨?_, ?_⟩
        · exact List.IsInfix.trans (hquoted ▸ (List.prefix_append ..).isInfix) hsuffix.isInfix
        · refine List.IsSuffix.trans ?_ hsuffix
          rw [hquoted]
          exact (List.suffix_cons ..).trans (List.suffix_append ..)
      · simp at h
    · simp at h
  · simp at h

theorem isInfix_readableAttributes (n : Nat) (s : List Char) :
    ∀ a ∈ readableAttributes n s, a.value <:+: s := by
  fun_induction readableAttributes n s with
  | case1 s a rest hr ih =>
    intro b hb
    rw [List.mem_cons] at hb
    rcases hb with rfl | hb
    · exact (isInfix_of_readAttribute hr).1
    · exact (ih b hb).trans (isInfix_of_readAttribute hr).2.isInfix
  | case2 => simp

/-- The values of a declaration stand in its content, unless the version is the default one. -/
theorem not_infix_parts {n content : List Char} (hn : ¬ n <:+: content)
    (hdefault : ¬ n <:+: "1.0".toList) :
    ∀ p ∈ parts (declarationOf content), ¬ n <:+: p.2.toList := by
  have hvalue : ∀ a ∈ readableAttributes (Text.width content) (content.drop 3),
      ¬ n <:+: (String.ofList a.value).toList := by
    intro a ha hi
    rw [String.toList_ofList] at hi
    exact hn ((hi.trans (isInfix_readableAttributes _ _ a ha)).trans (List.drop_suffix ..).isInfix)
  intro p hp
  simp only [parts, List.mem_cons, List.mem_append, List.mem_map, Option.mem_toList] at hp
  rcases hp with rfl | ⟨v, hv, rfl⟩ | ⟨v, hv, rfl⟩
  · simp only [declarationOf]
    split
    · rename_i a ha
      split
      · exact hvalue a (List.mem_of_head? ha)
      · exact hdefault
    · exact hdefault
  · simp only [declarationOf, Option.map_eq_some_iff] at hv
    obtain ⟨a, ha, rfl⟩ := hv
    exact hvalue a (List.mem_of_find?_eq_some ha)
  · simp only [declarationOf, Option.map_eq_some_iff] at hv
    obtain ⟨a, ha, rfl⟩ := hv
    exact hvalue a (List.mem_of_find?_eq_some ha)

end Markup

end SkillCompiler
