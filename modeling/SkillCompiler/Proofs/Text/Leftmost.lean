import SkillCompiler.Proofs.Text.Search

/-!
# Replacing leftmost occurrences at once

Texts are `Apart` if occurrences of them never overlap, in any text: no end of one starts the other,
and neither is in the other. What stands between two parts of a text and is apart from a needle does
not take part in its search (`leftmost?_append`). So the leftmost occurrences of words that are
apart from one another and from the text that takes their place can be replaced one after another,
in any order: the outcome is the text with all of them replaced at once (`foldl_replaceFirst`).
-/

namespace SkillCompiler

namespace Text

variable {n m a b r t : List Char}

/-! ## Occurrences that do not overlap -/

/-- The first position at which a needle stands. -/
def leftmost? (needle text : List Char) : Option Nat :=
  (List.range (text.length + 1)).find? fun i => needle.isPrefixOf (text.drop i)

/-- Texts whose occurrences never overlap. -/
structure Apart (n m : List Char) : Prop where
  /-- No end of the first starts the second. -/
  endStarts : ∀ k < n.length, ¬ n.drop k <+: m
  /-- No end of the second starts the first. -/
  startEnds : ∀ k < m.length, ¬ m.drop k <+: n
  notIn : ¬ n <:+: m
  notAround : ¬ m <:+: n

instance (n m : List Char) : Decidable (Apart n m) :=
  decidable_of_iff ((∀ k < n.length, ¬ n.drop k <+: m) ∧ (∀ k < m.length, ¬ m.drop k <+: n) ∧
      cut? n m = none ∧ cut? m n = none)
    ⟨fun ⟨hend, hstart, hin, haround⟩ => ⟨hend, hstart, cut?_eq_none.1 hin, cut?_eq_none.1 haround⟩,
      fun h => ⟨h.endStarts, h.startEnds, cut?_eq_none.2 h.notIn, cut?_eq_none.2 h.notAround⟩⟩

theorem Apart.symm (h : Apart n m) : Apart m n :=
  ⟨h.startEnds, h.endStarts, h.notAround, h.notIn⟩

theorem Apart.ne_nil (h : Apart n m) : n ≠ [] := by
  rintro rfl
  exact h.notIn List.nil_infix

theorem leftmost?_nil (n : List Char) : leftmost? n [] = if n = [] then some 0 else none := by
  cases n <;> rfl

theorem leftmost?_cons (n : List Char) (c : Char) (t : List Char) :
    leftmost? n (c :: t) = if n <+: c :: t then some 0 else (leftmost? n t).map (· + 1) := by
  unfold leftmost?
  rw [List.length_cons, List.range_succ_eq_map, List.find?_cons, List.find?_map]
  by_cases h : n <+: c :: t
  · rw [List.drop_zero, List.isPrefixOf_iff_prefix.2 h, if_pos h]
  · rw [List.drop_zero, Bool.eq_false_iff.2 (mt List.isPrefixOf_iff_prefix.1 h), if_neg h]
    rfl

/-- The search finds the first position. -/
theorem leftmost?_eq (n : List Char) :
    ∀ t : List Char, leftmost? n t = (cut? n t).map fun parts => parts.1.length
  | [] => by
    rw [leftmost?_nil]
    cases n <;> rfl
  | c :: t => by
    rw [leftmost?_cons, leftmost?_eq n t, cut?]
    split
    · rename_i hstart
      obtain ⟨rest, hrest⟩ := hstart
      rw [dropStart?_eq_some.2 hrest.symm]
      rfl
    · rename_i hstart
      rw [dropStart?_eq_none.2 hstart, Option.map_map, Option.map_map]
      rfl

theorem leftmost?_eq_none : leftmost? n t = none ↔ ¬ n <:+: t := by
  rw [leftmost?_eq, Option.map_eq_none_iff, cut?_eq_none]

theorem leftmost?_bound {i : Nat} (h : leftmost? n t = some i) : i + n.length ≤ t.length := by
  rw [leftmost?_eq] at h
  obtain ⟨⟨a, b⟩, hcut, rfl⟩ := Option.map_eq_some_iff.1 h
  rw [cut?_eq_some hcut, List.length_append, List.length_append]
  exact Nat.le_add_right ..

/-- A prefix of two texts ends in the first or goes on in the second. -/
theorem isPrefix_append_cases (h : n <+: a ++ r) :
    n <+: a ∨ ∃ l, l ≠ [] ∧ n = a ++ l ∧ l <+: r := by
  obtain ⟨rest, hrest⟩ := h
  rcases List.append_eq_append_iff.1 hrest with ⟨tail, ha, -⟩ | ⟨l, hn, hr⟩
  · exact .inl ⟨tail, ha.symm⟩
  · by_cases hl : l = []
    · exact .inl (by simp [hn, hl])
    · exact .inr ⟨l, hl, hn, rest, hr.symm⟩

/-- A search goes on in the second part of a text if no occurrence crosses the seam. -/
theorem leftmost?_append_of_seam (hn : n ≠ []) :
    ∀ {a : List Char}, (∀ s l, s <:+ a → s ≠ [] → l ≠ [] → n = s ++ l → ¬ l <+: r) →
      leftmost? n (a ++ r) = (leftmost? n a).or ((leftmost? n r).map (· + a.length))
  | [], _ => by simp [leftmost?_nil, hn]
  | c :: a, hseam => by
    have ih := leftmost?_append_of_seam hn fun s l hs => hseam s l (hs.trans (List.suffix_cons c a))
    have hstart : n <+: c :: (a ++ r) ↔ n <+: c :: a := by
      rw [← List.cons_append]
      refine ⟨fun h => ?_, fun h => h.trans (List.prefix_append ..)⟩
      rcases isPrefix_append_cases h with h | ⟨l, hl, hsplit, hr⟩
      · exact h
      · exact absurd hr (hseam _ l (List.suffix_refl _) (by simp) hl hsplit)
    rw [List.cons_append, leftmost?_cons, leftmost?_cons, ih]
    by_cases h : n <+: c :: a
    · rw [if_pos (hstart.2 h), if_pos h]
      rfl
    · rw [if_neg (mt hstart.1 h), if_neg h, Option.map_or, Option.map_map]
      rfl

/-- What is apart from a needle does not take part in its search. -/
theorem leftmost?_append (h : Apart n m) (a b : List Char) :
    leftmost? n (a ++ (m ++ b)) =
      (leftmost? n a).or ((leftmost? n b).map (· + (a.length + m.length))) := by
  have hn := h.ne_nil
  have hm : leftmost? n (m ++ b) = (leftmost? n b).map (· + m.length) := by
    rw [leftmost?_append_of_seam hn, leftmost?_eq_none.2 h.notIn, Option.none_or]
    -- An occurrence from the middle part into the last one starts with an end of the middle part.
    rintro s l ⟨front, rfl⟩ hs - rfl -
    have hlt : front.length < (front ++ s).length := by
      have := List.length_pos_iff.2 hs
      rw [List.length_append]
      omega
    refine h.startEnds front.length hlt ?_
    rw [List.drop_left]
    exact List.prefix_append s l
  rw [leftmost?_append_of_seam hn, hm, Option.map_map]
  · congr 2
    funext i
    simp only [Function.comp_apply]
    omega
  -- One from the first part on ends with a start of the middle part, or goes all the way over it.
  · rintro s l - - hl rfl hmb
    rcases isPrefix_append_cases hmb with hlm | ⟨tail, -, rfl, -⟩
    · have hlt : s.length < (s ++ l).length := by
        have := List.length_pos_iff.2 hl
        rw [List.length_append]
        omega
      refine h.endStarts s.length hlt ?_
      rwa [List.drop_left]
    · exact h.notAround (List.infix_append' ..)

/-! ## Replacing at once -/

/-- How far a position is from the start of the leftmost occurrence of a word, if it is in it. -/
def within? (word text : List Char) (i : Nat) : Option Nat :=
  (leftmost? word text).bind fun start =>
    if start ≤ i ∧ i < start + word.length then some (i - start) else none

/-- The distances of a position to the starts of the leftmost occurrences it is in. -/
def distances (words : List (List Char)) (text : List Char) (i : Nat) : List Nat :=
  words.filterMap fun word => within? word text i

/-- What becomes of a character: at a start it is `new`, later in an occurrence nothing, and
elsewhere the character stays. -/
def rewriteChar (new : List Char) (distances : List Nat) (c : Char) : List Char :=
  if distances = [] then [c] else if 0 ∈ distances then new else []

/-- What becomes of a text that starts at position `i`, by the distances at each position. -/
def rewriteFrom (new : List Char) (distances : Nat → List Nat) : (i : Nat) → List Char → List Char
  | _, [] => []
  | i, c :: t => rewriteChar new (distances i) c ++ rewriteFrom new distances (i + 1) t

/-- Puts `new` in place of the leftmost occurrences of all words, as they are in the text. -/
def replaceFirsts (words : List (List Char)) (new text : List Char) : List Char :=
  rewriteFrom new (distances words text) 0 text

variable {word new : List Char} {words : List (List Char)}

theorem within?_append_left (h : Apart n m) (b : List Char) {i : Nat} (hi : i < a.length) :
    within? n (a ++ (m ++ b)) i = within? n a i := by
  rw [within?, within?, leftmost?_append h]
  cases leftmost? n a with
  | some start => rfl
  | none =>
    cases leftmost? n b with
    | none => rfl
    | some start =>
      rw [Option.none_or, Option.map_some, Option.bind_some, if_neg (by omega), Option.bind_none]

theorem within?_append_middle (h : Apart n m) (a b : List Char) {k : Nat} (hk : k < m.length) :
    within? n (a ++ (m ++ b)) (a.length + k) = none := by
  rw [within?, leftmost?_append h]
  cases ha : leftmost? n a with
  | some start =>
    have hbound := leftmost?_bound ha
    exact if_neg (by omega)
  | none =>
    cases leftmost? n b with
    | none => rfl
    | some start =>
      rw [Option.none_or, Option.map_some, Option.bind_some, if_neg (by omega)]

theorem within?_append_right (h : Apart n m) (a b : List Char) (k : Nat) :
    within? n (a ++ (m ++ b)) (a.length + m.length + k) =
      if (leftmost? n a).isSome then none else within? n b k := by
  rw [within?, within?, leftmost?_append h]
  cases ha : leftmost? n a with
  | some start =>
    have hbound := leftmost?_bound ha
    exact if_neg (by omega)
  | none =>
    cases leftmost? n b with
    | none => rfl
    | some start =>
      have hmoved : start + (a.length + m.length) ≤ a.length + m.length + k ∧
          a.length + m.length + k < start + (a.length + m.length) + n.length ↔
            start ≤ k ∧ k < start + n.length := by omega
      have hdistance : a.length + m.length + k - (start + (a.length + m.length)) = k - start := by
        omega
      change (if _ then _ else _) = if start ≤ k ∧ k < start + n.length then _ else _
      simp only [hmoved, hdistance]

theorem within?_of_cut? (h : cut? word t = some (a, b)) (i : Nat) :
    within? word t i =
      if a.length ≤ i ∧ i < a.length + word.length then some (i - a.length) else none := by
  rw [within?, leftmost?_eq, h]
  rfl

theorem distances_cons_of_none {i : Nat} (h : within? word t i = none) :
    distances (word :: words) t i = distances words t i := by
  rw [distances, List.filterMap_cons, h, distances]

theorem distances_congr {i j : Nat} {t' : List Char}
    (h : ∀ word ∈ words, within? word t i = within? word t' j) :
    distances words t i = distances words t' j := by
  induction words with
  | nil => rfl
  | cons word words ih =>
    rw [List.forall_mem_cons] at h
    have ih := ih h.2
    unfold distances at ih ⊢
    rw [List.filterMap_cons, List.filterMap_cons, h.1, ih]

theorem distances_append_left (h : ∀ word ∈ words, Apart word m) (b : List Char) {i : Nat}
    (hi : i < a.length) : distances words (a ++ (m ++ b)) i = distances words a i :=
  distances_congr fun word hword => within?_append_left (h word hword) b hi

theorem distances_append_middle (h : ∀ word ∈ words, Apart word m) (a b : List Char) {k : Nat}
    (hk : k < m.length) : distances words (a ++ (m ++ b)) (a.length + k) = [] :=
  List.filterMap_eq_nil_iff.2 fun word hword => within?_append_middle (h word hword) a b hk

/-- Behind a part that is apart from all words it does not matter what this part is. -/
theorem distances_append_right {m' : List Char} (h : ∀ word ∈ words, Apart word m)
    (h' : ∀ word ∈ words, Apart word m') (a b : List Char) (k : Nat) :
    distances words (a ++ (m ++ b)) (a.length + m.length + k) =
      distances words (a ++ (m' ++ b)) (a.length + m'.length + k) :=
  distances_congr fun word hword => by
    rw [within?_append_right (h word hword), within?_append_right (h' word hword)]

/-! ### Parts of a text -/

section

variable {d d' : Nat → List Nat}

theorem rewriteFrom_append (new : List Char) (d : Nat → List Nat) (b : List Char) :
    ∀ (a : List Char) (i : Nat),
      rewriteFrom new d i (a ++ b) = rewriteFrom new d i a ++ rewriteFrom new d (i + a.length) b
  | [], _ => rfl
  | c :: a, i => by
    rw [List.cons_append, rewriteFrom, rewriteFrom, rewriteFrom_append new d b a, List.append_assoc,
      List.length_cons, Nat.add_right_comm, Nat.add_assoc]

theorem rewriteFrom_congr (new : List Char) :
    ∀ {t : List Char} {i j : Nat}, (∀ k < t.length, d (i + k) = d' (j + k)) →
      rewriteFrom new d i t = rewriteFrom new d' j t
  | [], _, _, _ => rfl
  | c :: t, i, j, h => by
    have hfirst : d i = d' j := h 0 (Nat.succ_pos _)
    have hrest : ∀ k < t.length, d (i + 1 + k) = d' (j + 1 + k) := fun k hk => by
      rw [Nat.add_assoc, Nat.add_assoc, Nat.add_comm 1, h (k + 1) (Nat.succ_lt_succ hk)]
    rw [rewriteFrom, rewriteFrom, hfirst, rewriteFrom_congr new hrest]

theorem rewriteFrom_perm (new : List Char) (h : ∀ i, (d i).Perm (d' i)) :
    ∀ (t : List Char) (i : Nat), rewriteFrom new d i t = rewriteFrom new d' i t
  | [], _ => rfl
  | c :: t, i => by
    have hchar : rewriteChar new (d i) c = rewriteChar new (d' i) c := by
      simp only [rewriteChar, (h i).mem_iff, ← List.isEmpty_iff, (h i).isEmpty_eq]
    rw [rewriteFrom, rewriteFrom, hchar, rewriteFrom_perm new h t]

/-- Where there are no occurrences the text stays. -/
theorem rewriteFrom_nil (new : List Char) :
    ∀ (t : List Char) (i : Nat), rewriteFrom new (fun _ => []) i t = t
  | [], _ => rfl
  | c :: t, i => by
    rw [rewriteFrom, rewriteFrom_nil new t]
    rfl

/-- An occurrence becomes `new` as a whole. -/
theorem rewriteFrom_singleton (hne : t ≠ []) (new : List Char) :
    rewriteFrom new (fun k => [k]) 0 t = new := by
  have htail : ∀ (t : List Char) (i : Nat), rewriteFrom new (fun k => [k]) (i + 1) t = [] := by
    intro t
    induction t with
    | nil => exact fun _ => rfl
    | cons c t ih => exact fun i => by simp [rewriteFrom, rewriteChar, ih]
  obtain ⟨c, t, rfl⟩ := List.exists_cons_of_ne_nil hne
  rw [rewriteFrom, htail, List.append_nil]
  rfl

end

theorem replaceFirsts_cons_of_none (h : cut? word t = none) :
    replaceFirsts (word :: words) new t = replaceFirsts words new t := by
  have hnone : ∀ i, within? word t i = none := by
    intro i
    rw [within?, leftmost?_eq, h]
    rfl
  exact rewriteFrom_congr new fun k _ => distances_cons_of_none (hnone _)

/-- After the replacement of one word, the others are where they were before it. -/
theorem replaceFirsts_cons_of_some (hword : ∀ other ∈ words, Apart other word)
    (hnew : ∀ other ∈ words, Apart other new) (hne : word ≠ []) (h : cut? word t = some (a, b)) :
    replaceFirsts (word :: words) new t = replaceFirsts words new (a ++ (new ++ b)) := by
  have ht : t = a ++ (word ++ b) := by rw [cut?_eq_some h, List.append_assoc]
  have hwithin := within?_of_cut? h
  subst ht
  have hbefore : ∀ i < a.length, distances (word :: words) (a ++ (word ++ b)) i =
      distances words (a ++ (new ++ b)) i := by
    intro i hi
    rw [distances_cons_of_none ((hwithin i).trans (if_neg (by omega))),
      distances_append_left hword b hi, distances_append_left hnew b hi]
  have hhere : ∀ k < word.length,
      distances (word :: words) (a ++ (word ++ b)) (a.length + k) = [k] := by
    intro k hk
    have hk' : within? word (a ++ (word ++ b)) (a.length + k) = some k := by
      rw [hwithin, if_pos (by omega), Nat.add_sub_cancel_left]
    have hothers := distances_append_middle hword a b hk
    unfold distances at hothers ⊢
    rw [List.filterMap_cons, hk', hothers]
  have hbehind : ∀ k, distances (word :: words) (a ++ (word ++ b)) (a.length + word.length + k) =
      distances words (a ++ (new ++ b)) (a.length + new.length + k) := by
    intro k
    rw [distances_cons_of_none ((hwithin _).trans (if_neg (by omega))),
      distances_append_right hword hnew]
  unfold replaceFirsts
  rw [rewriteFrom_append, rewriteFrom_append, rewriteFrom_append, rewriteFrom_append]
  simp only [Nat.zero_add]
  congr 1
  · exact rewriteFrom_congr new fun k hk => by simpa using hbefore k hk
  congr 1
  · calc rewriteFrom new (distances (word :: words) (a ++ (word ++ b))) a.length word
        = rewriteFrom new (fun k => [k]) 0 word :=
          rewriteFrom_congr new fun k hk => by simpa using hhere k hk
      _ = rewriteFrom new (fun _ => []) a.length new := by
          rw [rewriteFrom_singleton hne, rewriteFrom_nil]
      _ = rewriteFrom new (distances words (a ++ (new ++ b))) a.length new :=
          rewriteFrom_congr new fun k hk => (distances_append_middle hnew a b hk).symm
  · exact rewriteFrom_congr new fun k _ => hbehind k

theorem replaceFirsts_nil (new t : List Char) : replaceFirsts [] new t = t :=
  rewriteFrom_nil new t 0

/-- The order of the words does not matter. -/
theorem replaceFirsts_perm {words' : List (List Char)} (h : words.Perm words')
    (new t : List Char) : replaceFirsts words new t = replaceFirsts words' new t :=
  rewriteFrom_perm new (fun _ => h.filterMap _) t 0

/-- Words that are apart from one another and from what takes their place can be replaced one after
another: it is as if all were replaced at once. -/
theorem foldl_replaceFirst {new : String} :
    ∀ {words : List String}, words.Pairwise (fun u v => Apart u.toList v.toList) →
      (∀ word ∈ words, Apart word.toList new.toList) → ∀ text : String,
      words.foldl (fun text word => replaceFirst word new text) text =
        String.ofList (replaceFirsts (words.map String.toList) new.toList text.toList)
  | [], _, _, text => by
    rw [List.map_nil, replaceFirsts_nil, String.ofList_toList]
    rfl
  | word :: words, hwords, hnew, text => by
    rw [List.pairwise_cons] at hwords
    rw [List.forall_mem_cons] at hnew
    rw [List.foldl_cons, foldl_replaceFirst hwords.2 hnew.2, List.map_cons]
    unfold replaceFirst
    congr 1
    cases hcut : cut? word.toList text.toList with
    | none => exact (replaceFirsts_cons_of_none hcut).symm
    | some parts =>
      have hword : ∀ other ∈ words.map String.toList, Apart other word.toList :=
        List.forall_mem_map.2 fun other hother => (hwords.1 other hother).symm
      rw [replaceFirsts_cons_of_some hword (List.forall_mem_map.2 hnew.2) hnew.1.ne_nil hcut,
        String.toList_ofList, List.append_assoc]

/-! ## What a replacement spares -/

/-- Replacing the leftmost `word` neither makes nor takes away a leftmost `other`, and leaves it on
its side. -/
def Spares (word new other : String) : Prop :=
  ∀ (text : String) (i : Nat), leftmost? word.toList text.toList = some i →
    match leftmost? other.toList text.toList with
    | none => leftmost? other.toList (replaceFirst word new text).toList = none
    | some j =>
      j + other.length ≤ i ∧
          leftmost? other.toList (replaceFirst word new text).toList = some j ∨
        i + word.length ≤ j ∧
          leftmost? other.toList (replaceFirst word new text).toList =
            some (j - word.length + new.length)

theorem spares_of_apart {word new other : String} (hword : Apart other.toList word.toList)
    (hnew : Apart other.toList new.toList) : Spares word new other := by
  intro text i hi
  rw [leftmost?_eq] at hi
  obtain ⟨⟨a, b⟩, hcut, rfl⟩ := Option.map_eq_some_iff.1 hi
  have htext : text.toList = a ++ (word.toList ++ b) := by rw [cut?_eq_some hcut, List.append_assoc]
  have hreplaced : (replaceFirst word new text).toList = a ++ (new.toList ++ b) := by
    rw [replaceFirst, hcut, String.toList_ofList, List.append_assoc]
  rw [hreplaced, htext, leftmost?_append hword, leftmost?_append hnew]
  cases ha : leftmost? other.toList a with
  | some j => exact .inl ⟨leftmost?_bound ha, rfl⟩
  | none =>
    cases leftmost? other.toList b with
    | none => rfl
    | some j =>
      have hlength : word.toList.length = word.length := String.length_toList
      have hlength' : new.toList.length = new.length := String.length_toList
      refine .inr ⟨?_, congrArg some ?_⟩ <;> dsimp only <;> omega

end Text

end SkillCompiler
