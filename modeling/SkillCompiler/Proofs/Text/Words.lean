import SkillCompiler.Text.Blank
import SkillCompiler.Text.Lines

/-!
# The pieces of a text

A text that is split at some characters falls into pieces without them (`forall_mem_splitOnP`). The
words of a text are what is left of it between white space (`words_append_cons`), and trimming it
takes none of them away (`words_trim`). A text has one word exactly if it is a word when it is
trimmed (`words_eq_singleton_iff`).
-/

namespace SkillCompiler

namespace Text

variable {c : Char} {text part word : List Char}

/-! ## Splitting -/

theorem forall_mem_splitOnP (p : Char → Bool) (text : List Char) :
    ∀ part ∈ text.splitOnP p, ∀ c ∈ part, p c = false := by
  induction text with
  | nil => simp
  | cons d text ih =>
    rw [List.splitOnP_cons_eq_if_modifyHead]
    by_cases hd : p d
    · rw [if_pos hd, List.forall_mem_cons]
      exact ⟨by simp, ih⟩
    · rw [if_neg hd]
      cases hsplit : text.splitOnP p with
      | nil => exact absurd hsplit (List.splitOnP_ne_nil p text)
      | cons first rest =>
        rw [hsplit, List.forall_mem_cons] at ih
        rw [List.modifyHead_cons, List.forall_mem_cons, List.forall_mem_cons]
        exact ⟨⟨by simpa using hd, ih.1⟩, ih.2⟩

theorem notMem_of_mem_splitOn (h : part ∈ text.splitOn c) : c ∉ part := by
  intro hc
  have hother := forall_mem_splitOnP (· == c) text part h c hc
  simp at hother

/-! ## Cutting -/

theorem takeWhile_ne_append {before : List Char} (h : c ∉ before) (rest : List Char) :
    (before ++ rest).takeWhile (· ≠ c) = before ++ rest.takeWhile (· ≠ c) :=
  List.takeWhile_append_of_pos fun d hd => by simpa using fun he : d = c => h (he ▸ hd)

theorem takeWhile_ne_eq_self (h : c ∉ text) : text.takeWhile (· ≠ c) = text := by
  simpa using takeWhile_ne_append h []

theorem takeWhile_ne_append_cons (c : Char) (before rest : List Char) :
    (before ++ c :: rest).takeWhile (· ≠ c) = before.takeWhile (· ≠ c) := by
  induction before with
  | nil => simp
  | cons d before ih => rw [List.cons_append, List.takeWhile_cons, ih, List.takeWhile_cons]

/-! ## Words -/

@[simp] theorem words_nil : words [] = [] := by simp [words]

theorem words_append_cons (hc : isSpace c) (before after : List Char) :
    words (before ++ c :: after) = words before ++ words after := by
  rw [words, List.splitOnP_append_cons before after hc, List.filter_append, ← words, ← words]

theorem words_eq_singleton (hne : word ≠ []) (h : ∀ c ∈ word, isSpace c = false) :
    words word = [word] := by
  rw [words, List.splitOnP_eq_singleton h]
  simp [hne]

theorem words_append_left {blank : List Char} (h : ∀ c ∈ blank, isSpace c) (text : List Char) :
    words (blank ++ text) = words text := by
  induction blank with
  | nil => rfl
  | cons c blank ih =>
    rw [List.forall_mem_cons] at h
    rw [List.cons_append, ← List.nil_append (c :: _), words_append_cons h.1, words_nil,
      List.nil_append, ih h.2]

theorem words_append_right {blank : List Char} (h : ∀ c ∈ blank, isSpace c) (text : List Char) :
    words (text ++ blank) = words text := by
  cases blank with
  | nil => rw [List.append_nil]
  | cons c blank =>
    rw [List.forall_mem_cons] at h
    have hblank : words blank = [] := by simpa using words_append_left h.2 []
    rw [words_append_cons h.1, hblank, List.append_nil]

/-- A word, and white space after it. -/
theorem words_append_gap {gap : List Char} (hne : word ≠ []) (hword : ∀ c ∈ word, isSpace c = false)
    (hgap : gap ≠ []) (h : ∀ c ∈ gap, isSpace c) (rest : List Char) :
    words (word ++ (gap ++ rest)) = word :: words rest := by
  obtain ⟨c, blank, rfl⟩ := List.exists_cons_of_ne_nil hgap
  rw [List.forall_mem_cons] at h
  rw [List.cons_append, words_append_cons h.1, words_eq_singleton hne hword, words_append_left h.2,
    List.singleton_append]

/-- A text that starts with a letter has a first word, which starts as the text does. -/
theorem exists_words_cons {start : List Char} (hne : start ≠ [])
    (h : ∀ c ∈ start, isSpace c = false) (rest : List Char) :
    ∃ tail more, words (start ++ rest) = (start ++ tail) :: more := by
  induction rest generalizing start with
  | nil => exact ⟨[], [], by rw [List.append_nil, words_eq_singleton hne h]⟩
  | cons c rest ih =>
    by_cases hc : isSpace c
    · refine ⟨[], words rest, ?_⟩
      rw [words_append_cons hc, words_eq_singleton hne h, List.append_nil, List.singleton_append]
    · have hstart : ∀ d ∈ start ++ [c], isSpace d = false := by
        simpa [or_imp, forall_and] using And.intro h (Bool.eq_false_iff.mpr hc)
      obtain ⟨tail, more, htail⟩ := ih (List.append_ne_nil_of_right_ne_nil _ (by simp)) hstart
      rw [List.append_assoc, List.append_assoc] at htail
      exact ⟨c :: tail, more, htail⟩

theorem words_eq_nil_iff : words text = [] ↔ ∀ c ∈ text, isSpace c := by
  constructor
  · intro h
    induction text with
    | nil => simp
    | cons c text ih =>
      by_cases hc : isSpace c
      · rw [← List.nil_append (c :: text), words_append_cons hc, words_nil, List.nil_append] at h
        exact List.forall_mem_cons.mpr ⟨hc, ih h⟩
      · obtain ⟨tail, more, hwords⟩ := exists_words_cons (List.cons_ne_nil c [])
          (by simpa using hc) text
        rw [← List.singleton_append, hwords] at h
        contradiction
  · intro h
    simpa using words_append_left h []

/-! ## Trimming -/

theorem isSpace_of_mem_takeWhile (h : c ∈ text.takeWhile isSpace) : isSpace c :=
  List.all_eq_true.mp List.all_takeWhile c h

/-- A text is its trimmed self between white space. -/
theorem exists_eq_trim (text : List Char) : ∃ before after, (∀ c ∈ before, isSpace c) ∧
    (∀ c ∈ after, isSpace c) ∧ before ++ (trim text ++ after) = text := by
  refine ⟨text.takeWhile isSpace, ((text.dropWhile isSpace).reverse.takeWhile isSpace).reverse,
    fun c hc => isSpace_of_mem_takeWhile hc,
    fun c hc => isSpace_of_mem_takeWhile (List.mem_reverse.mp hc), ?_⟩
  rw [trim, ← List.reverse_append, List.takeWhile_append_dropWhile, List.reverse_reverse,
    List.takeWhile_append_dropWhile]

theorem words_trim (text : List Char) : words (trim text) = words text := by
  obtain ⟨before, after, hbefore, hafter, htext⟩ := exists_eq_trim text
  rw [← words_append_right hafter (trim text), ← words_append_left hbefore, htext]

/-- A trimmed text does not start with white space. -/
theorem isSpace_of_trim_eq_cons {rest : List Char} (h : trim text = c :: rest) :
    isSpace c = false := by
  have hhead := List.head?_dropWhile_not isSpace text
  have hdrop : text.dropWhile isSpace =
      trim text ++ ((text.dropWhile isSpace).reverse.takeWhile isSpace).reverse := by
    rw [trim, ← List.reverse_append, List.takeWhile_append_dropWhile, List.reverse_reverse]
  rw [hdrop, h] at hhead
  simpa using hhead

/-- A trimmed text does not end in white space. -/
theorem isSpace_of_trim_eq_concat {start : List Char} (h : trim text = start ++ [c]) :
    isSpace c = false := by
  rw [trim, List.reverse_eq_iff, List.reverse_append, List.reverse_singleton] at h
  have hhead := List.head?_dropWhile_not isSpace (text.dropWhile isSpace).reverse
  rw [h] at hhead
  simpa using hhead

theorem trim_eq_nil_iff : trim text = [] ↔ words text = [] := by
  constructor
  · intro h
    rw [← words_trim, h, words_nil]
  · intro h
    rw [← words_trim, words_eq_nil_iff] at h
    cases htrim : trim text with
    | nil => rfl
    | cons c rest =>
      have hspace := h c (htrim ▸ List.mem_cons_self)
      rw [isSpace_of_trim_eq_cons htrim] at hspace
      contradiction

/-- White space inside a trimmed text would stand between two words. -/
theorem isSpace_of_mem_trim (h : words text = [word]) (hc : c ∈ trim text) :
    isSpace c = false := by
  refine Bool.eq_false_iff.mpr fun hspace => ?_
  obtain ⟨before, after, htrim⟩ := List.append_of_mem hc
  rw [← words_trim, htrim, words_append_cons hspace] at h
  have hbefore : words before ≠ [] := by
    rw [Ne, words_eq_nil_iff]
    intro hall
    cases before with
    | nil => simp [isSpace_of_trim_eq_cons htrim] at hspace
    | cons d before => simp [isSpace_of_trim_eq_cons htrim] at hall
  have hafter : words after ≠ [] := by
    rw [Ne, words_eq_nil_iff]
    intro hall
    rcases List.eq_nil_or_concat after with rfl | ⟨after, d, rfl⟩
    · simp [isSpace_of_trim_eq_concat htrim] at hspace
    · rw [List.concat_eq_append, ← List.cons_append, ← List.append_assoc] at htrim
      have hlast := hall d (by simp)
      simp [isSpace_of_trim_eq_concat htrim] at hlast
  rcases List.append_eq_singleton_iff.mp h with ⟨hnil, -⟩ | ⟨-, hnil⟩
  · exact hbefore hnil
  · exact hafter hnil

theorem words_eq_singleton_iff : words text = [word] ↔
    trim text = word ∧ word ≠ [] ∧ ∀ c ∈ word, isSpace c = false := by
  constructor
  · intro h
    have hne : trim text ≠ [] := by
      rw [Ne, trim_eq_nil_iff, h]
      exact List.cons_ne_nil _ _
    have hall : ∀ c ∈ trim text, isSpace c = false := fun c hc => isSpace_of_mem_trim h hc
    obtain rfl : trim text = word := by
      rw [← words_trim, words_eq_singleton hne hall] at h
      exact List.singleton_inj.mp h
    exact ⟨rfl, hne, hall⟩
  · rintro ⟨rfl, hne, hall⟩
    rw [← words_trim, words_eq_singleton hne hall]

end Text

end SkillCompiler
