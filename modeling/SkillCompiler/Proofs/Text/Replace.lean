import SkillCompiler.Proofs.Text.Words
import SkillCompiler.Text.Search

/-!
# What a replacement leaves

A replacement passes over text in which the old text does not begin (`substitute_append`), takes an
occurrence out as a whole (`substitute_self_append`), and does nothing where there is none
(`substitute_eq_self`). A name between two marks occurs only where the text up to the next mark is
that name (`substitute_cons`).
-/

namespace SkillCompiler

namespace Text

variable {old new text : List Char} {c : Char}

theorem substitute_skip (old new : List Char) (rest : List Char) :
    ∀ passed : List Char,
      substitute old new passed.length (passed ++ rest) = substitute old new 0 rest
  | [] => rfl
  | _ :: passed => by
    rw [List.length_cons, List.cons_append, substitute]
    exact substitute_skip old new rest passed

theorem substitute_eq_self (new : List Char) (h : ¬ old <:+: text) :
    substitute old new 0 text = text := by
  induction text with
  | nil => rfl
  | cons d text ih =>
    rw [List.infix_cons_iff, not_or] at h
    rw [substitute, if_neg (by simpa using h.1), ih h.2]

theorem substitute_append {before : List Char} (h : c ∉ before) (old new text : List Char) :
    substitute (c :: old) new 0 (before ++ text) = before ++ substitute (c :: old) new 0 text := by
  induction before with
  | nil => rfl
  | cons d before ih =>
    simp only [List.mem_cons, not_or] at h
    rw [List.cons_append, substitute, if_neg (by simp [h.1]), ih h.2, List.cons_append]

theorem substitute_self_append (h : old ≠ []) (new rest : List Char) :
    substitute old new 0 (old ++ rest) = new ++ substitute old new 0 rest := by
  obtain ⟨d, tail, rfl⟩ := List.exists_cons_of_ne_nil h
  rw [List.cons_append, substitute, if_pos (by simp), List.length_cons, Nat.add_sub_cancel,
    substitute_skip]

/-- A mark after which the text up to the next mark is not `name` stays. -/
theorem substitute_cons {name : List Char} (hc : c ∉ name) (h : text.takeWhile (· ≠ c) ≠ name)
    (new : List Char) :
    substitute (c :: (name ++ [c])) new 0 (c :: text) =
      c :: substitute (c :: (name ++ [c])) new 0 text := by
  rw [substitute, if_neg]
  rw [List.isPrefixOf_iff_prefix, List.cons_prefix_cons, not_and]
  rintro - ⟨rest, rfl⟩
  rw [List.append_assoc, List.singleton_append, takeWhile_ne_append_cons,
    takeWhile_ne_eq_self hc] at h
  exact h rfl

theorem replaceAll_eq {old : String} (h : old ≠ "") (new text : String) :
    replaceAll old new text = String.ofList (substitute old.toList new.toList 0 text.toList) := by
  unfold replaceAll
  split
  · rename_i hold
    exact absurd (String.toList_eq_nil_iff.1 hold) h
  · rfl

theorem replaceAll_eq_self {old text : String} (hne : old ≠ "") (new : String)
    (h : ¬ old.toList <:+: text.toList) : replaceAll old new text = text := by
  rw [replaceAll_eq hne, substitute_eq_self _ h, String.ofList_toList]

/-- The first occurrence is replaced where no other one can begin before it. -/
theorem replaceAll_append {old before : String} (hc : old.toList.head? = some c)
    (h : c ∉ before.toList) (new rest : String) :
    replaceAll old new (before ++ (old ++ rest)) = before ++ (new ++ replaceAll old new rest) := by
  obtain ⟨tail, hold⟩ := List.head?_eq_some_iff.1 hc
  have hne : old ≠ "" := by
    rintro rfl
    cases hc
  rw [replaceAll_eq hne, replaceAll_eq hne, String.toList_append, String.toList_append, hold,
    substitute_append h, ← hold, substitute_self_append (by simp [hold])]
  simp only [String.ofList_append, String.ofList_toList]

end Text

end SkillCompiler
