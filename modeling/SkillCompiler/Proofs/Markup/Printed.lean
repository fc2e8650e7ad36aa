import Mathlib.Data.List.Induction
import Mathlib.Data.List.TakeWhile
import SkillCompiler.Document.Print
import SkillCompiler.Proofs.Markup.Read

/-!
# Reading what was written

The names and texts that a token holds decide whether it is read back from what is written
(`Token.Writable`). Such a token, other than text, is read back whatever follows it (`next_print`).
Text is read back without the blanks around it (`next_escape`): references are resolved after the
blanks have been dropped, and a blank is never written as a reference.
-/

namespace SkillCompiler

namespace Markup

/-! ## Blanks -/

/-- The text without the blanks at either end. -/
def trim (text : List Char) : List Char :=
  trimEnd (text.dropWhile isBlank)

theorem trimEnd_append_blank {s b : List Char} (hb : ∀ c ∈ b, isBlank c) :
    trimEnd (s ++ b) = trimEnd s := by
  have h : b.reverse.dropWhile isBlank = [] := by
    rw [List.dropWhile_eq_nil_iff]
    exact fun c hc => hb c (List.mem_reverse.1 hc)
  rw [trimEnd, trimEnd, List.reverse_append, List.dropWhile_append, h, List.isEmpty_nil, if_pos rfl]

theorem trimEnd_append_singleton {s : List Char} {c : Char} (hc : isBlank c = false) :
    trimEnd (s ++ [c]) = s ++ [c] := by
  rw [trimEnd, List.reverse_append, List.reverse_singleton, List.singleton_append,
    List.dropWhile_cons_of_neg (by simp [hc]), List.reverse_cons, List.reverse_reverse]

theorem trimEnd_eq_self {s : List Char} (h : ∀ c, s.getLast? = some c → isBlank c = false) :
    trimEnd s = s := by
  rcases List.eq_nil_or_concat s with rfl | ⟨s, c, rfl⟩
  · rfl
  · rw [List.concat_eq_append] at h ⊢
    exact trimEnd_append_singleton (h c (by simp))

theorem dropWhile_isBlank_eq_self {s : List Char}
    (h : ∀ c, s.head? = some c → isBlank c = false) : s.dropWhile isBlank = s := by
  cases s with
  | nil => rfl
  | cons c s => rw [List.dropWhile_cons_of_neg (by simp [h c rfl])]

theorem trim_eq_self {s : List Char} (hs : ∀ c, s.head? = some c → isBlank c = false)
    (he : ∀ c, s.getLast? = some c → isBlank c = false) : trim s = s := by
  rw [trim, dropWhile_isBlank_eq_self hs, trimEnd_eq_self he]

theorem isBlank_lineBreak (level : Nat) : ∀ c ∈ Token.lineBreak level, isBlank c := by
  intro c hc
  rw [Token.lineBreak, List.mem_cons] at hc
  rcases hc with rfl | hc
  · rfl
  · rw [List.eq_of_mem_replicate hc]
    rfl

/-! ## References -/

/-- A character stands for itself, or for a reference that names it. -/
theorem escapeChar_cases (c : Char) :
    (escapeChar c = [c] ∧ c ∉ ['<', '>', '&', '\'', '"']) ∨
      isBlank c = false ∧ ∃ name, escapeChar c = '&' :: (name ++ [';']) ∧
        (∀ d ∈ name, d.isAlpha) ∧ ∀ start, resolve start name = .ok c := by
  unfold escapeChar
  split
  · exact Or.inr ⟨rfl, "lt".toList, rfl, by simp, fun _ => rfl⟩
  · exact Or.inr ⟨rfl, "gt".toList, rfl, by simp, fun _ => rfl⟩
  · exact Or.inr ⟨rfl, "amp".toList, rfl, by simp, fun _ => rfl⟩
  · exact Or.inr ⟨rfl, "apos".toList, rfl, by simp, fun _ => rfl⟩
  · exact Or.inr ⟨rfl, "quot".toList, rfl, by simp, fun _ => rfl⟩
  · rename_i hlt hgt hamp hapos hquot
    refine Or.inl ⟨rfl, ?_⟩
    simp only [List.mem_cons, List.not_mem_nil, or_false, not_or]
    exact ⟨hlt, hgt, hamp, hapos, hquot⟩

/-- A blank is never written as a reference. -/
theorem escapeChar_of_isBlank {c : Char} (h : isBlank c) : escapeChar c = [c] := by
  rcases escapeChar_cases c with ⟨hc, -⟩ | ⟨hb, -⟩
  · exact hc
  · rw [h] at hb
    cases hb

/-- What is written for any other character begins and ends without a blank. -/
theorem escapeChar_of_not_isBlank {c : Char} (h : isBlank c = false) :
    (∃ d s, escapeChar c = d :: s ∧ isBlank d = false) ∧
      ∃ s d, escapeChar c = s ++ [d] ∧ isBlank d = false := by
  rcases escapeChar_cases c with ⟨hc, -⟩ | ⟨-, name, hc, -⟩
  · exact ⟨⟨c, [], hc, h⟩, [], c, hc, h⟩
  · exact ⟨⟨'&', _, hc, rfl⟩, '&' :: name, ';', by rw [hc, List.cons_append], rfl⟩

@[simp] theorem escape_nil : escape [] = [] := rfl

@[simp] theorem escape_append (s t : List Char) : escape (s ++ t) = escape s ++ escape t :=
  List.flatMap_append

theorem escape_cons (c : Char) (s : List Char) : escape (c :: s) = escapeChar c ++ escape s :=
  List.flatMap_cons

theorem escape_eq_nil {s : List Char} : escape s = [] ↔ s = [] := by
  cases s with
  | nil => simp
  | cons c s =>
    rw [escape_cons]
    rcases escapeChar_cases c with ⟨hc, -⟩ | ⟨-, name, hc, -⟩ <;> simp [hc]

theorem mem_escape {s : List Char} {d : Char} (h : d ∈ escape s) : d ≠ '<' ∧ d ≠ '"' := by
  obtain ⟨c, -, hd⟩ := List.mem_flatMap.1 h
  rcases escapeChar_cases c with ⟨hc, hplain⟩ | ⟨-, name, hc, halpha, -⟩
  · rw [hc, List.mem_singleton] at hd
    subst hd
    simp only [List.mem_cons, not_or] at hplain
    exact ⟨hplain.1, hplain.2.2.2.2.1⟩
  · rw [hc, List.mem_cons, List.mem_append, List.mem_singleton] at hd
    rcases hd with rfl | hd | rfl
    · decide
    · have ha := halpha d hd
      constructor <;> rintro rfl <;> exact absurd ha (by decide)
    · decide

theorem dropWhile_isBlank_escape (s : List Char) :
    (escape s).dropWhile isBlank = escape (s.dropWhile isBlank) := by
  induction s with
  | nil => rfl
  | cons c s ih =>
    rw [escape_cons]
    cases hc : isBlank c with
    | true =>
      rw [escapeChar_of_isBlank hc, List.singleton_append, List.dropWhile_cons_of_pos hc,
        List.dropWhile_cons_of_pos hc, ih]
    | false =>
      obtain ⟨⟨d, t, hd, hb⟩, -⟩ := escapeChar_of_not_isBlank hc
      rw [List.dropWhile_cons_of_neg (by simp [hc]), escape_cons, hd, List.cons_append,
        List.dropWhile_cons_of_neg (by simp [hb])]

theorem trimEnd_escape (s : List Char) : trimEnd (escape s) = escape (trimEnd s) := by
  induction s using List.reverseRecOn with
  | nil => rfl
  | append_singleton s c ih =>
    have hone : escape [c] = escapeChar c := List.append_nil _
    rw [escape_append, hone]
    cases hc : isBlank c with
    | true =>
      rw [escapeChar_of_isBlank hc, trimEnd_append_blank (by simp [hc]),
        trimEnd_append_blank (by simp [hc]), ih]
    | false =>
      obtain ⟨-, t, d, hd, hb⟩ := escapeChar_of_not_isBlank hc
      rw [hd, ← List.append_assoc, trimEnd_append_singleton hb, trimEnd_append_singleton hc,
        escape_append, hone, hd, List.append_assoc]

theorem unescapeFrom_reference {total position : Nat} {name : List Char} {d : Char}
    (hname : ∀ c ∈ name, c ≠ '&' ∧ c ≠ ';') (hd : resolve (position + 1) name = .ok d)
    (s : List Char) :
    unescapeFrom total position ('&' :: (name ++ ';' :: s)) =
      (unescapeFrom total (position + 1 + Text.width name + 1) s).map (d :: ·) := by
  have hp : ∀ c ∈ name, (decide (c ≠ '&') && decide (c ≠ ';')) = true := by simpa using hname
  rw [unescapeFrom, if_pos rfl]
  split
  · rename_i rest heq
    rw [List.dropWhile_append_of_pos hp] at heq
    simp only [List.dropWhile_cons, ne_eq, not_true_eq_false, decide_false, Bool.and_false,
      Bool.false_eq_true, if_false, List.cons.injEq, true_and] at heq
    rw [List.takeWhile_append_of_pos hp]
    simp only [List.takeWhile_cons, ne_eq, not_true_eq_false, decide_false, Bool.and_false,
      Bool.false_eq_true, if_false, List.append_nil, hd, ← heq]
    rfl
  · rename_i hne
    rw [List.dropWhile_append_of_pos hp] at hne
    exact absurd (by simp) (hne s)

theorem unescapeFrom_escape (total : Nat) (s : List Char) :
    ∀ position, unescapeFrom total position (escape s) = .ok s := by
  induction s with
  | nil =>
    intro position
    rw [escape_nil, unescapeFrom]
  | cons c s ih =>
    intro position
    rw [escape_cons]
    rcases escapeChar_cases c with ⟨hc, hplain⟩ | ⟨-, name, hc, halpha, hresolve⟩
    · have hamp : c ≠ '&' := by
        rintro rfl
        simp at hplain
      rw [hc, List.singleton_append, unescapeFrom, if_neg hamp, ih]
      rfl
    · have hname : ∀ d ∈ name, d ≠ '&' ∧ d ≠ ';' := by
        intro d hd
        have ha := halpha d hd
        constructor <;> rintro rfl <;> exact absurd ha (by decide)
      rw [hc, List.cons_append, List.append_assoc, List.singleton_append,
        unescapeFrom_reference hname (hresolve _), ih]
      rfl

theorem unescape_escape (s : List Char) : unescape (escape s) = .ok s :=
  unescapeFrom_escape _ s 0

/-! ## Attributes -/

/-- The characters a name is made of, so that it is read back. -/
def isNameChar (c : Char) : Bool :=
  c.isAlphanum || c = '_' || c = '-' || c = '.' || c = ':'

/-- A name that is read back: not empty and made of name characters. -/
def IsName (name : String) : Prop :=
  name.toList ≠ [] ∧ ∀ c ∈ name.toList, isNameChar c

-- Said by `all`, so that deciding it goes through the name and not through all characters.
instance (name : String) : Decidable (IsName name) :=
  decidable_of_iff (name.toList ≠ [] ∧ name.toList.all isNameChar) (by
    rw [IsName, List.all_eq_true])

theorem ne_of_isNameChar {c : Char} (hc : isNameChar c) (d : Char) (hd : isNameChar d = false) :
    c ≠ d := by
  rintro rfl
  rw [hc] at hd
  cases hd

theorem not_isBlank_of_isNameChar {c : Char} (hc : isNameChar c) : isBlank c = false := by
  have hne := ne_of_isNameChar hc
  simp [isBlank, hne ' ' rfl, hne '\t' rfl, hne '\r' rfl, hne '\n' rfl]

theorem IsName.exists_cons {name : String} (h : IsName name) :
    ∃ c body, name.toList = c :: body ∧ isNameChar c ∧ ∀ d ∈ body, isNameChar d := by
  obtain ⟨c, body, hn⟩ := List.exists_cons_of_ne_nil h.1
  have hmem := h.2
  rw [hn, List.forall_mem_cons] at hmem
  exact ⟨c, body, hn, hmem⟩

/-- A name with a raw value in quotes, as it stands in a tag. -/
def quotedPart (name value : List Char) : List Char :=
  ' ' :: name ++ "=\"".toList ++ value ++ ['"']

theorem quotedPart_append (name value r : List Char) :
    quotedPart name value ++ r = ' ' :: (name ++ '=' :: '"' :: (value ++ '"' :: r)) := by
  simp [quotedPart]

theorem quoted?_append {value : List Char} (hv : '"' ∉ value) (r : List Char) :
    quoted? '"' (value ++ '"' :: r) = some (value, r) := by
  induction value with
  | nil => simp [quoted?]
  | cons c value ih =>
    rw [List.mem_cons, not_or] at hv
    rw [List.cons_append, quoted?, if_neg (Ne.symm hv.1), ih hv.2]
    rfl

theorem readAttribute_quotedPart {unique : Bool} {seen : List RawAttribute} {name : String}
    {value : List Char} (hname : IsName name) (hv : '"' ∉ value)
    (hseen : unique → ∀ b ∈ seen, b.name ≠ name.toList) (total : Nat) (r : List Char) :
    ∃ position, readAttribute unique total seen (quotedPart name.toList value ++ r) =
      .ok (some (⟨position, name.toList, value⟩, r)) := by
  obtain ⟨c, body, hn, hc, hb⟩ := hname.exists_cons
  rw [hn] at hseen ⊢
  have hbody : ∀ d ∈ body, (decide (d ≠ '=') && !isBlank d) = true := by
    intro d hd
    simp [ne_of_isNameChar (hb d hd) '=' rfl, not_isBlank_of_isNameChar (hb d hd)]
  have hstart : (quotedPart (c :: body) value ++ r).dropWhile isBlank =
      c :: (body ++ '=' :: '"' :: (value ++ '"' :: r)) := by
    rw [quotedPart_append, List.dropWhile_cons_of_pos rfl, List.cons_append,
      List.dropWhile_cons_of_neg (by simp [not_isBlank_of_isNameChar hc])]
  have hfind : (if unique then seen.find? fun a => a.name = c :: body else none) = none := by
    split
    · rename_i hu
      rw [List.find?_eq_none]
      exact fun b hb => by simpa using hseen hu b hb
    · rfl
  refine ⟨total - Text.width (c :: (body ++ '=' :: '"' :: (value ++ '"' :: r))), ?_⟩
  unfold readAttribute
  rw [hstart]
  simp only [List.takeWhile_append_of_pos hbody, List.dropWhile_append_of_pos hbody]
  simp [isBlank, hfind, quoted?_append hv]

theorem readAttributes_attributeText {total : Nat} :
    ∀ {as : List Attribute} {seen : List RawAttribute}, Distinct as → (∀ a ∈ as, IsName a.name) →
      (∀ a ∈ as, ∀ b ∈ seen, b.name ≠ a.name.toList) →
      readAttributes total seen (as.flatMap Token.attributeText) = .ok as
  | [], seen, _, _, _ => by
    rw [List.flatMap_nil, readAttributes]
    rfl
  | a :: as, seen, hd, hn, hseen => by
    simp only [Distinct, List.map_cons, List.nodup_cons, List.mem_map, not_exists, not_and] at hd
    simp only [List.mem_cons, forall_eq_or_imp] at hn hseen
    obtain ⟨p, hr⟩ := readAttribute_quotedPart hn.1 (fun h => (mem_escape h).2 rfl)
      (fun _ => hseen.1) total (as.flatMap Token.attributeText)
    have hmore : readAttributes total (⟨p, a.name.toList, escape a.value.toList⟩ :: seen)
        (as.flatMap Token.attributeText) = .ok as := by
      refine readAttributes_attributeText hd.2 hn.2 fun b hb c hc => ?_
      rw [List.mem_cons] at hc
      rcases hc with rfl | hc
      · exact fun he => hd.1 b hb (String.toList_injective he).symm
      · exact hseen.2 b hb c hc
    rw [List.flatMap_cons, readAttributes]
    split
    · rename_i heq
      cases hr.symm.trans heq
    · rename_i heq
      cases hr.symm.trans heq
    · rename_i heq
      cases hr.symm.trans heq
      simp [unescape_escape, hmore, bind, Except.bind, pure, Except.pure]

/-! ## Tags -/

theorem tag?_append {s : List Char} (hs : ∀ c ∈ s, c ≠ '>' ∧ c ≠ '"' ∧ c ≠ '\'') (r : List Char) :
    tag? none (s ++ r) = (tag? none r).map fun p => (s ++ p.1, p.2) := by
  induction s with
  | nil => simp
  | cons c s ih =>
    rw [List.forall_mem_cons] at hs
    obtain ⟨⟨hgt, hquot, hapos⟩, hs⟩ := hs
    rw [List.cons_append, tag?]
    simp [hgt, hquot, hapos, ih hs, Function.comp_def]

theorem tag?_quote {value : List Char} (hv : '"' ∉ value) (r : List Char) :
    tag? (some '"') (value ++ '"' :: r) =
      (tag? none r).map fun p => (value ++ '"' :: p.1, p.2) := by
  induction value with
  | nil => simp [tag?]
  | cons c value ih =>
    rw [List.mem_cons, not_or] at hv
    rw [List.cons_append, tag?]
    simp [Ne.symm hv.1, ih hv.2, Function.comp_def]

theorem tag?_name {name : String} (h : IsName name) (r : List Char) :
    tag? none (name.toList ++ r) = (tag? none r).map fun p => (name.toList ++ p.1, p.2) := by
  refine tag?_append (fun c hc => ?_) r
  have hne := ne_of_isNameChar (h.2 c hc)
  exact ⟨hne '>' rfl, hne '"' rfl, hne '\'' rfl⟩

theorem tag?_quotedPart {name : String} {value : List Char} (hname : IsName name)
    (hv : '"' ∉ value) (r : List Char) :
    tag? none (quotedPart name.toList value ++ r) =
      (tag? none r).map fun p => (quotedPart name.toList value ++ p.1, p.2) := by
  have hopen : ∀ r, tag? none (' ' :: r) = (tag? none r).map fun p => (' ' :: p.1, p.2) :=
    tag?_append (s := [' ']) (by simp)
  have hequals : tag? none ('=' :: '"' :: (value ++ '"' :: r)) =
      (tag? (some '"') (value ++ '"' :: r)).map fun p => ('=' :: '"' :: p.1, p.2) := by
    simp [tag?, Function.comp_def]
  rw [quotedPart_append, hopen, tag?_name hname, hequals, tag?_quote hv]
  simp [quotedPart_append, Function.comp_def]

theorem tag?_attributes {as : List Attribute} (hn : ∀ a ∈ as, IsName a.name) (r : List Char) :
    tag? none (as.flatMap Token.attributeText ++ r) =
      (tag? none r).map fun p => (as.flatMap Token.attributeText ++ p.1, p.2) := by
  induction as with
  | nil => simp
  | cons a as ih =>
    rw [List.forall_mem_cons] at hn
    rw [List.flatMap_cons, List.append_assoc]
    refine (tag?_quotedPart hn.1 (fun h => (mem_escape h).2 rfl) _).trans ?_
    rw [ih hn.2]
    simp [Token.attributeText, quotedPart, Function.comp_def]

/-- The name and the attributes of a tag, as they are written. -/
def tagText (tag : String) (as : List Attribute) : List Char :=
  tag.toList ++ as.flatMap Token.attributeText

/-- What a tag has to hold to be read back. -/
def WritableTag (tag : String) (as : List Attribute) : Prop :=
  IsName tag ∧ (∀ a ∈ as, IsName a.name) ∧ Distinct as

instance (tag : String) (as : List Attribute) : Decidable (WritableTag tag as) :=
  inferInstanceAs (Decidable (_ ∧ _ ∧ List.Nodup _))

section

variable {tag : String} {as : List Attribute}

theorem tag?_tagText (h : WritableTag tag as) (r : List Char) :
    tag? none (tagText tag as ++ r) =
      (tag? none r).map fun p => (tagText tag as ++ p.1, p.2) := by
  rw [tagText, List.append_assoc, tag?_name h.1, tag?_attributes h.2.1]
  simp [Function.comp_def]

theorem getLast?_tagText (h : WritableTag tag as) : (tagText tag as).getLast? ≠ some '/' := by
  intro hl
  rw [tagText] at hl
  rcases List.eq_nil_or_concat as with rfl | ⟨as, a, rfl⟩
  · rw [List.flatMap_nil, List.append_nil] at hl
    exact ne_of_isNameChar (h.1.2 _ (List.mem_of_getLast? hl)) '/' rfl rfl
  · simp only [List.concat_eq_append, List.flatMap_append, List.flatMap_cons, List.flatMap_nil,
      List.append_nil, Token.attributeText, ← List.append_assoc, List.getLast?_concat,
      Option.some.injEq] at hl
    exact absurd hl (by decide)

/-- The name ends where the attributes begin. -/
theorem span_tagText (h : WritableTag tag as) :
    (tagText tag as).takeWhile (fun c => !isBlank c) = tag.toList ∧
      (tagText tag as).dropWhile (fun c => !isBlank c) = as.flatMap Token.attributeText := by
  have htag : ∀ c ∈ tag.toList, (!isBlank c) = true := by
    intro c hc
    rw [not_isBlank_of_isNameChar (h.1.2 c hc)]
    rfl
  rw [tagText, List.takeWhile_append_of_pos htag, List.dropWhile_append_of_pos htag]
  cases as with
  | nil => simp
  | cons a as => simp [Token.attributeText, isBlank]

theorem readAttributes_tagText (h : WritableTag tag as) (total : Nat) :
    readAttributes total [] (as.flatMap Token.attributeText) = .ok as :=
  readAttributes_attributeText h.2.2 h.2.1 (by simp)

theorem startTag_start (h : WritableTag tag as) (rest : List Char) :
    startTag (tagText tag as ++ '>' :: rest) = .ok (.start tag as, rest) := by
  have hcut : tag? none (tagText tag as ++ '>' :: rest) = some (tagText tag as, rest) := by
    rw [tag?_tagText h, tag?]
    simp
  unfold startTag
  rw [hcut]
  simp [getLast?_tagText h, span_tagText h, readAttributes_tagText h]

theorem startTag_empty (h : WritableTag tag as) (rest : List Char) :
    startTag (tagText tag as ++ '/' :: '>' :: rest) = .ok (.empty tag as, rest) := by
  have hcut : tag? none (tagText tag as ++ '/' :: '>' :: rest) =
      some (tagText tag as ++ ['/'], rest) := by
    rw [tag?_tagText h]
    simp [tag?]
  unfold startTag
  rw [hcut]
  simp [span_tagText h, readAttributes_tagText h]

theorem markup_tagText (h : WritableTag tag as) (r : List Char) :
    markup (tagText tag as ++ r) = startTag (tagText tag as ++ r) := by
  obtain ⟨c, body, hn, hc, -⟩ := h.1.exists_cons
  have hne := ne_of_isNameChar hc
  rw [tagText, hn, List.cons_append, List.cons_append]
  unfold markup
  split
  · rename_i heq
    cases heq
  · rename_i heq
    exact absurd (List.cons.inj heq).1 (hne '!' rfl)
  · rename_i heq
    exact absurd (List.cons.inj heq).1 (hne '?' rfl)
  · rename_i heq
    exact absurd (List.cons.inj heq).1 (hne '/' rfl)
  · rfl

theorem closeTag_name (h : IsName tag) (rest : List Char) :
    closeTag (tag.toList ++ '>' :: rest) = .ok (.close tag, rest) := by
  have hcut : tag? none (tag.toList ++ '>' :: rest) = some (tag.toList, rest) := by
    rw [tag?_name h, tag?]
    simp
  have hall : tag.toList.all isBlank = false := by
    obtain ⟨c, body, hn, hc, -⟩ := h.exists_cons
    simp [hn, not_isBlank_of_isNameChar hc]
  have htrim : trimEnd tag.toList = tag.toList :=
    trimEnd_eq_self fun c hc => not_isBlank_of_isNameChar (h.2 c (List.mem_of_getLast? hc))
  unfold closeTag
  rw [hcut]
  simp [hall, htrim]

end

/-! ## The declaration -/

/-- The content of a declaration after its first word. -/
def partsText (ps : List (String × String)) : List Char :=
  ps.flatMap fun p => quotedPart p.1.toList p.2.toList

/-- Values that are read back from a declaration. -/
def WritableValue (value : String) : Prop :=
  '"' ∉ value.toList ∧ ¬ "?>".toList <:+: value.toList

instance (value : String) : Decidable (WritableValue value) :=
  inferInstanceAs (Decidable (_ ∧ ¬ _ <:+: _))

theorem partsText_append (ps qs : List (String × String)) :
    partsText (ps ++ qs) = partsText ps ++ partsText qs :=
  List.flatMap_append

theorem partText_eq (name : String) (value? : Option String) :
    Token.partText name value? = partsText (value?.toList.map (name, ·)) := by
  cases value? with
  | none => rfl
  | some value => exact (List.append_nil _).symm

theorem print_declaration (d : Declaration) :
    (Token.declaration d).print = "<?xml".toList ++ (partsText (parts d) ++ "?>".toList) := by
  have hparts : partsText (parts d) = Token.partText "version" (some d.version) ++
      (Token.partText "encoding" d.encoding ++ Token.partText "standalone" d.standalone) := by
    rw [partText_eq "encoding", partText_eq "standalone", ← partsText_append]
    rfl
  rw [hparts]
  unfold Token.print
  simp only [List.append_assoc]

theorem isName_of_mem_parts {d : Declaration} {p : String × String} (h : p ∈ parts d) :
    IsName p.1 := by
  simp only [parts, List.mem_cons, List.mem_append, List.mem_map] at h
  rcases h with rfl | ⟨-, -, rfl⟩ | ⟨-, -, rfl⟩
  · exact (by decide : IsName "version")
  · exact (by decide : IsName "encoding")
  · exact (by decide : IsName "standalone")

theorem map_readableAttributes {ps : List (String × String)} (hn : ∀ p ∈ ps, IsName p.1)
    (hv : ∀ p ∈ ps, WritableValue p.2) (total : Nat) :
    (readableAttributes total (partsText ps)).map (fun a => (a.name, a.value)) =
      ps.map fun p => (p.1.toList, p.2.toList) := by
  induction ps with
  | nil =>
    rw [partsText, List.flatMap_nil, readableAttributes]
    rfl
  | cons p ps ih =>
    rw [List.forall_mem_cons] at hn hv
    have hread : ∃ position, readAttribute false total []
        (quotedPart p.1.toList p.2.toList ++ partsText ps) =
          .ok (some (⟨position, p.1.toList, p.2.toList⟩, partsText ps)) :=
      readAttribute_quotedPart hn.1 hv.1.1 (by simp) total _
    obtain ⟨position, hr⟩ := hread
    rw [partsText, List.flatMap_cons, readableAttributes]
    split
    · rename_i heq
      cases hr.symm.trans heq
      rw [List.map_cons, List.map_cons]
      exact congrArg _ (ih hn.2 hv.2)
    · rename_i hne
      exact absurd hr (hne _ _)

theorem find?_parts_encoding (d : Declaration) :
    ((parts d).find? fun p => p.1 = "encoding").map Prod.snd = d.encoding := by
  rcases d with ⟨v, e | e, s | s⟩ <;> rfl

theorem find?_parts_standalone (d : Declaration) :
    ((parts d).find? fun p => p.1 = "standalone").map Prod.snd = d.standalone := by
  rcases d with ⟨v, e | e, s | s⟩ <;> rfl

theorem declarationOf_parts {d : Declaration} (h : ∀ p ∈ parts d, WritableValue p.2) :
    declarationOf ("xml".toList ++ partsText (parts d)) = d := by
  have hread := map_readableAttributes (fun p => isName_of_mem_parts) h
    (Text.width ("xml".toList ++ partsText (parts d)))
  have hdrop : ("xml".toList ++ partsText (parts d)).drop 3 = partsText (parts d) :=
    List.drop_left' rfl
  have hfind : ∀ name : String,
      ((readableAttributes (Text.width ("xml".toList ++ partsText (parts d)))
        (partsText (parts d))).find? fun a => a.name = name.toList).map
          (fun a => String.ofList a.value) =
        ((parts d).find? fun p => p.1 = name).map Prod.snd := by
    intro name
    have hmap := congrArg (fun l => (l.find? fun p : List Char × List Char => p.1 = name.toList).map
      fun p => String.ofList p.2) hread
    simpa [List.find?_map, Function.comp_def, String.toList_inj] using hmap
  unfold declarationOf
  rw [hdrop]
  simp only [hfind, find?_parts_encoding, find?_parts_standalone]
  obtain ⟨a, rest, hknown, ha⟩ := List.map_eq_cons_iff.1 hread
  simp only [Prod.mk.injEq] at ha
  rw [hknown, List.head?_cons]
  simp [ha.1.1, ha.1.2]

theorem not_infix_partsText {ps : List (String × String)} (hn : ∀ p ∈ ps, IsName p.1)
    (hv : ∀ p ∈ ps, WritableValue p.2) : ¬ "?>".toList <:+: partsText ps := by
  induction ps with
  | nil => decide
  | cons p ps ih =>
    rw [List.forall_mem_cons] at hn hv
    have hname : ¬ "?>".toList <:+: p.1.toList := fun hi =>
      ne_of_isNameChar (hn.1.2 '?' (hi.subset (by decide))) '?' rfl rfl
    rw [partsText, List.flatMap_cons, quotedPart_append]
    refine Text.not_infix_append_cons (a := []) (by decide) (by decide) ?_
    refine Text.not_infix_append_cons hname (by decide) ?_
    refine Text.not_infix_append_cons (a := []) (by decide) (by decide) ?_
    exact Text.not_infix_append_cons hv.1.2 (by decide) (ih hn.2 hv.2)

theorem instruction_parts {d : Declaration} (h : ∀ p ∈ parts d, WritableValue p.2)
    (rest : List Char) :
    instruction ("xml".toList ++ (partsText (parts d) ++ ("?>".toList ++ rest))) =
      .ok (.declaration d, rest) := by
  have hparts := not_infix_partsText (fun p => isName_of_mem_parts) h
  obtain ⟨text, htext⟩ : ∃ text, partsText (parts d) = ' ' :: text := ⟨_, rfl⟩
  have hword : ¬ ['?'] ++ ['>'] <:+: "xml".toList ++ partsText (parts d) := by
    rw [htext] at hparts ⊢
    refine Text.not_infix_append_cons (by decide) (by decide) fun hi => hparts ?_
    exact hi.trans (List.suffix_cons ..).isInfix
  have hcut : Text.cut? "?>".toList
      ("xml".toList ++ (partsText (parts d) ++ ("?>".toList ++ rest))) =
      some ("xml".toList ++ partsText (parts d), rest) := by
    rw [← List.append_assoc]
    exact Text.cut?_append (by decide) hword rest
  have hstart : Text.dropStart? "xml".toList ("xml".toList ++ partsText (parts d)) =
      some (' ' :: text) := Text.dropStart?_eq_some.2 (by rw [htext])
  unfold instruction
  split
  · rename_i heq
    exact absurd (List.cons.inj heq).1 (by decide)
  · rw [hcut]
    simp only [hstart, isBlank, decide_true, Bool.true_or, if_true, declarationOf_parts h]

end Markup

/-! ## Tokens -/

namespace Token

/-- The tokens that are read back from what is written for them. -/
def Writable : Token → Prop
  | declaration d => ∀ p ∈ Markup.parts d, Markup.WritableValue p.2
  | start tag as => Markup.WritableTag tag as
  | empty tag as => Markup.WritableTag tag as
  | close tag => Markup.IsName tag
  | text _ => True
  | cdata value => ¬ "]]>".toList <:+: value.toList
  | comment value => ¬ "-->".toList <:+: value.toList
  | skipped => False

end Token

namespace Markup

theorem next_angle (body : List Char) : next ('<' :: body) = (markup body).map some := by
  rw [next, List.dropWhile_cons_of_neg (by decide)]
  rfl

theorem comment_append {value : String} (h : ¬ "-->".toList <:+: value.toList) (rest : List Char) :
    comment (value.toList ++ ("-->".toList ++ rest)) = .ok (.comment value, rest) := by
  have hcut : Text.cut? "-->".toList (value.toList ++ ("-->".toList ++ rest)) =
      some (value.toList, rest) :=
    Text.cut?_append (m := "--".toList) (e := '>') (by decide) h rest
  unfold comment
  simp only [hcut, String.ofList_toList]

theorem cdata_append {value : String} (h : ¬ "]]>".toList <:+: value.toList) (rest : List Char) :
    cdata (value.toList ++ ("]]>".toList ++ rest)) = .ok (.cdata value, rest) := by
  have hcut : Text.cut? "]]>".toList (value.toList ++ ("]]>".toList ++ rest)) =
      some (value.toList, rest) :=
    Text.cut?_append (m := "]]".toList) (e := '>') (by decide) h rest
  unfold cdata
  simp only [hcut, String.ofList_toList]

/-- What is written for a token is read back, whatever follows. -/
theorem next_print {t : Token} (ht : t.Writable) (htext : ∀ value, t ≠ .text value)
    (rest : List Char) : next (t.print ++ rest) = .ok (some (t, rest)) := by
  cases t with
  | declaration d =>
    rw [print_declaration, List.append_assoc, List.append_assoc]
    refine (next_angle _).trans ?_
    exact congrArg (Except.map some) (instruction_parts ht rest)
  | start tag as =>
    have hprint : (Token.start tag as).print ++ rest = '<' :: (tagText tag as ++ '>' :: rest) := by
      unfold Token.print
      simp [tagText]
    rw [hprint, next_angle, markup_tagText ht, startTag_start ht]
    rfl
  | empty tag as =>
    have hprint : (Token.empty tag as).print ++ rest =
        '<' :: (tagText tag as ++ '/' :: '>' :: rest) := by
      unfold Token.print
      simp [tagText]
    rw [hprint, next_angle, markup_tagText ht, startTag_empty ht]
    rfl
  | close tag =>
    have hprint : (Token.close tag).print ++ rest = '<' :: '/' :: (tag.toList ++ '>' :: rest) := by
      unfold Token.print
      simp
    rw [hprint, next_angle, markup, closeTag_name ht]
    rfl
  | text value => exact absurd rfl (htext value)
  | cdata value =>
    unfold Token.print
    rw [List.append_assoc, List.append_assoc]
    refine (next_angle _).trans ?_
    exact congrArg (Except.map some) (cdata_append ht rest)
  | comment value =>
    unfold Token.print
    rw [List.append_assoc, List.append_assoc]
    refine (next_angle _).trans ?_
    exact congrArg (Except.map some) (comment_append ht rest)
  | skipped => exact ht.elim

/-- Only text is written without an angle in front. -/
theorem print_eq_angle {t : Token} (ht : t.Writable) (htext : ∀ value, t ≠ .text value) :
    ∃ body, t.print = '<' :: body := by
  cases t with
  | text value => exact absurd rfl (htext value)
  | skipped => exact ht.elim
  | _ => exact ⟨_, rfl⟩

theorem next_blank {b : List Char} (hb : ∀ c ∈ b, isBlank c) (r : List Char) :
    next (b ++ r) = next r := by
  unfold next
  rw [List.dropWhile_append_of_pos hb]

/-- Text up to an angle is read without the blanks around it. -/
theorem next_escape {s b r : List Char} (hs : trim s ≠ []) (hb : ∀ c ∈ b, isBlank c)
    (hr : ∀ c, r.head? = some c → c = '<') :
    next (escape s ++ (b ++ r)) = .ok (some (.text (String.ofList (trim s)), r)) := by
  obtain ⟨d, t, hd⟩ := List.exists_cons_of_ne_nil fun h : escape (s.dropWhile isBlank) = [] =>
    hs (by rw [trim, escape_eq_nil.1 h]; rfl)
  have hmem : ∀ c ∈ escape (s.dropWhile isBlank) ++ b, decide (c ≠ '<') = true := by
    intro c hc
    rw [decide_eq_true_eq]
    rcases List.mem_append.1 hc with hc | hc
    · exact (mem_escape hc).1
    · rintro rfl
      exact absurd (hb _ hc) (by decide)
  have hspan : r.takeWhile (fun c => decide (c ≠ '<')) = [] ∧
      r.dropWhile (fun c => decide (c ≠ '<')) = r := by
    cases r with
    | nil => simp
    | cons c r => simp [hr c rfl]
  have hstart : (escape s ++ (b ++ r)).dropWhile isBlank =
      escape (s.dropWhile isBlank) ++ b ++ r := by
    rw [List.dropWhile_append, dropWhile_isBlank_escape, hd]
    simp
  have hchars : characters (escape (s.dropWhile isBlank) ++ b ++ r) =
      .ok (.text (String.ofList (trim s)), r) := by
    unfold characters
    rw [List.takeWhile_append_of_pos hmem, List.dropWhile_append_of_pos hmem, hspan.1, hspan.2,
      List.append_nil, trimEnd_append_blank hb, trimEnd_escape, unescape_escape, trim]
  unfold next
  rw [hstart]
  split
  · rename_i heq
    simp [hd] at heq
  · rename_i heq
    rw [hd] at heq hmem
    exact absurd (List.cons.inj heq).1 (by simpa using hmem d (by simp))
  · rw [hchars]
    rfl

end Markup

end SkillCompiler
