import SkillCompiler.Text.Search

/-!
# What a search finds

A search fails exactly if the needle does not occur (`cut?_eq_none`), and what stands before the
occurrence it finds holds none (`cut?_leftmost`). A needle whose last character occurs in it only
there cannot overlap itself, so in a text that is free of it, followed by the needle, it is found
where it was put (`cut?_append`).
-/

namespace SkillCompiler

namespace Text

variable {n a b s t : List Char} {c : Char}

theorem dropStart?_eq_none : dropStart? n t = none ↔ ¬ n <+: t := by
  rw [Option.eq_none_iff_forall_ne_some]
  constructor
  · rintro h ⟨r, hr⟩
    exact h r (dropStart?_eq_some.2 hr.symm)
  · intro h r hr
    exact h ⟨r, (dropStart?_eq_some.1 hr).symm⟩

theorem cut?_eq_none : cut? n t = none ↔ ¬ n <:+: t := by
  induction t with
  | nil => rw [cut?, Option.map_eq_none_iff, dropStart?_eq_none, List.prefix_nil, List.infix_nil]
  | cons c t ih =>
    rw [cut?, List.infix_cons_iff, not_or, ← ih]
    split
    · rename_i r hr
      have hp : n <+: c :: t := ⟨r, (dropStart?_eq_some.1 hr).symm⟩
      simp [hp]
    · rename_i hr
      rw [dropStart?_eq_none] at hr
      simp [hr]

theorem contains_iff {needle text : String} :
    contains needle text ↔ needle.toList <:+: text.toList := by
  rw [contains, Option.isSome_iff_ne_none, Ne, cut?_eq_none, Decidable.not_not]

/-- The occurrence that is found is the leftmost. -/
theorem cut?_leftmost (hn : n ≠ []) (h : cut? n t = some (a, b)) : ¬ n <:+: a := by
  induction t generalizing a with
  | nil =>
    simp only [cut?, Option.map_eq_some_iff, Prod.mk.injEq] at h
    obtain ⟨-, -, rfl, -⟩ := h
    rwa [List.infix_nil]
  | cons c t ih =>
    have hsplit := cut?_eq_some h
    rw [cut?] at h
    split at h
    · simp only [Option.some.injEq, Prod.mk.injEq] at h
      rw [← h.1, List.infix_nil]
      exact hn
    · rename_i hstart
      simp only [Option.map_eq_some_iff, Prod.mk.injEq] at h
      obtain ⟨⟨x, y⟩, hxy, rfl, rfl⟩ := h
      rw [List.infix_cons_iff, not_or]
      refine ⟨fun hp => ?_, ih hxy⟩
      rw [dropStart?_eq_none, hsplit, List.append_assoc] at hstart
      exact hstart (hp.trans (List.prefix_append ..))

/-- What comes after the occurrence that is found does not matter. -/
theorem cut?_append_of_cut? (hn : n ≠ []) (h : cut? n t = some (a, b)) (s : List Char) :
    cut? n (a ++ n ++ s) = some (a, s) := by
  induction t generalizing a with
  | nil =>
    have hsplit := cut?_eq_some h
    simp [hn] at hsplit
  | cons c t ih =>
    have hsplit := cut?_eq_some h
    rw [cut?] at h
    split at h
    · simp only [Option.some.injEq, Prod.mk.injEq] at h
      obtain ⟨d, m, rfl⟩ := List.exists_cons_of_ne_nil hn
      have hstart : dropStart? (d :: m) (d :: (m ++ s)) = some s := dropStart?_eq_some.2 rfl
      rw [← h.1, List.nil_append, List.cons_append, cut?, hstart]
    · rename_i hstart
      simp only [Option.map_eq_some_iff, Prod.mk.injEq] at h
      obtain ⟨⟨x, y⟩, hxy, rfl, rfl⟩ := h
      -- An occurrence at the front would end before the text that is put in.
      have hnone : dropStart? n (c :: x ++ n ++ s) = none := by
        rw [dropStart?_eq_none] at hstart ⊢
        intro hp
        have hle : n.length ≤ (c :: x ++ n).length := by
          rw [List.length_append]
          omega
        have hfront := List.prefix_of_prefix_length_le hp (List.prefix_append ..) hle
        rw [hsplit] at hstart
        exact hstart (hfront.trans (List.prefix_append ..))
      rw [List.cons_append, List.cons_append, cut?, ← List.cons_append, ← List.cons_append, hnone,
        ih hxy]
      rfl

theorem isPrefix_of_notMem (h : n <+: a ++ c :: s) (hc : c ∉ n) : n <+: a := by
  induction a generalizing n with
  | nil =>
    cases n with
    | nil => exact List.nil_prefix
    | cons d n =>
      rw [List.nil_append, List.cons_prefix_cons] at h
      exact absurd (by simp [h.1]) hc
  | cons e a ih =>
    cases n with
    | nil => exact List.nil_prefix
    | cons d n =>
      rw [List.cons_append, List.cons_prefix_cons] at h
      exact List.cons_prefix_cons.2 ⟨h.1, ih h.2 fun hm => hc (List.mem_cons_of_mem _ hm)⟩

/-- A character that is not in the needle cuts the search in two. -/
theorem cut?_append_cons (hn : ¬ n <:+: a) (hc : c ∉ n) (s : List Char) :
    cut? n (a ++ c :: s) = (cut? n s).map fun p => (a ++ c :: p.1, p.2) := by
  have hstart : ∀ x, ¬ n <+: x → dropStart? n (x ++ c :: s) = none := fun x hx =>
    dropStart?_eq_none.2 fun hp => hx (isPrefix_of_notMem hp hc)
  induction a with
  | nil =>
    rw [List.nil_append, cut?, ← List.nil_append (c :: s),
      hstart [] fun hp => hn hp.isInfix]
    rfl
  | cons d a ih =>
    rw [List.infix_cons_iff, not_or] at hn
    rw [List.cons_append, cut?, ← List.cons_append, hstart _ hn.1, ih hn.2]
    simp [Function.comp_def]

theorem not_infix_append_cons (ha : ¬ n <:+: a) (hc : c ∉ n) (hs : ¬ n <:+: s) :
    ¬ n <:+: a ++ c :: s := by
  rw [← cut?_eq_none, cut?_append_cons ha hc, cut?_eq_none.2 hs]
  rfl

/-- No occurrence overlaps a needle that ends in a character of its own. -/
theorem isPrefix_of_isPrefix_append {m : List Char} {e : Char} (he : e ∉ m) (ha : a ≠ [])
    (h : m ++ [e] <+: a ++ (m ++ [e] ++ b)) : m ++ [e] <+: a := by
  by_cases hlen : (m ++ [e]).length ≤ a.length
  · exact List.prefix_of_prefix_length_le h (List.prefix_append ..) hlen
  · exfalso
    rw [List.length_append, List.length_singleton] at hlen
    have hpos : 0 < a.length := List.length_pos_iff.2 ha
    -- The last character of the prefix would stand inside `m`.
    have hlast : (a ++ (m ++ [e] ++ b))[m.length]? = some e := by
      obtain ⟨r, hr⟩ := h
      rw [← hr]
      simp
    rw [List.getElem?_append_right (by omega), List.append_assoc,
      List.getElem?_append_left (by omega)] at hlast
    exact he (List.mem_of_getElem? hlast)

theorem cut?_append {m : List Char} {e : Char} (he : e ∉ m) (h : ¬ m ++ [e] <:+: a)
    (b : List Char) : cut? (m ++ [e]) (a ++ (m ++ [e] ++ b)) = some (a, b) := by
  induction a with
  | nil =>
    have hstart : dropStart? (m ++ [e]) (m ++ [e] ++ b) = some b := dropStart?_eq_some.2 rfl
    rw [List.nil_append]
    cases hm : m ++ [e] ++ b with
    | nil => simp at hm
    | cons d t =>
      rw [hm] at hstart
      rw [cut?, hstart]
  | cons d a ih =>
    rw [List.infix_cons_iff, not_or] at h
    have hstart : dropStart? (m ++ [e]) (d :: a ++ (m ++ [e] ++ b)) = none :=
      dropStart?_eq_none.2 fun hp => h.1 (isPrefix_of_isPrefix_append he (by simp) hp)
    rw [List.cons_append, cut?, ← List.cons_append, hstart, ih h.2]
    rfl

end Text

end SkillCompiler
