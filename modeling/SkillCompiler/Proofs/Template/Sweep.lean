import SkillCompiler.Proofs.Template.Nesting

/-!
# Deleting a region in one scan

Deleting takes the regions out one by one and looks for each from the front again. What is left is
what one scan from the left leaves (`left_sweep`), and the text that can be extracted is the
interior of the first span that the scan skips (`extract_eq`). `delete_eq_sweep` says so together
with how the rounds come to an end.
-/

namespace SkillCompiler

namespace Template

/-- What a scan over segments skips, and what it leaves. -/
structure Sweep where
  /-- The interiors of the spans that are skipped, in order. -/
  skipped : List (List Segment)
  left : List Segment
  deriving DecidableEq, Repr

/-- Reads segments from the left. An opening marker that has a closing marker after it starts a
span, which reaches through the first of these. Other markers of the region are dropped alone. -/
def sweep (r : Region) : List Segment → Sweep
  | [] => ⟨[], []⟩
  | s :: rest =>
    if s = .marker r.opening ∧ .marker r.closing ∈ rest then
      let inner := rest.takeWhile (· ≠ .marker r.closing)
      let after := sweep r (rest.drop (inner.length + 1))
      ⟨inner :: after.skipped, after.left⟩
    else
      let after := sweep r rest
      if r.IsMarker s then after else ⟨after.skipped, s :: after.left⟩
termination_by segments => segments.length

/-! ## The cases of the scan -/

section

variable {r : Region}

theorem sweep_nil : sweep r [] = ⟨[], []⟩ := by rw [sweep]

theorem sweep_span {inner : List Segment} (h : .marker r.closing ∉ inner) (after : List Segment) :
    sweep r (.marker r.opening :: (inner ++ .marker r.closing :: after)) =
      ⟨inner :: (sweep r after).skipped, (sweep r after).left⟩ := by
  have hinner :
      (inner ++ .marker r.closing :: after).takeWhile (· ≠ .marker r.closing) = inner := by
    have hne : ∀ s ∈ inner, s ≠ .marker r.closing := fun s hs he => h (he ▸ hs)
    rw [List.takeWhile_append_of_pos fun s hs => by simpa using hne s hs]
    simp
  have hafter : (inner ++ .marker r.closing :: after).drop (inner.length + 1) = after := by
    simp [List.drop_append]
  rw [sweep, if_pos ⟨rfl, by simp⟩]
  simp only [hinner, hafter]

theorem sweep_alone {s : Segment} (hs : r.IsMarker s) {rest : List Segment}
    (h : s = .marker r.opening → .marker r.closing ∉ rest) :
    sweep r (s :: rest) = sweep r rest := by
  rw [sweep, if_neg fun hspan => h hspan.1 hspan.2, if_pos hs]

theorem sweep_cons {s : Segment} (hs : ¬ r.IsMarker s) (rest : List Segment) :
    sweep r (s :: rest) = ⟨(sweep r rest).skipped, s :: (sweep r rest).left⟩ := by
  rw [sweep, if_neg fun hspan => hs (.inl hspan.1), if_neg hs]

/-- Every list of segments is read by these cases. -/
@[elab_as_elim]
theorem sweep_induction (r : Region) {motive : List Segment → Prop} (nil : motive [])
    (span : ∀ inner after, .marker r.closing ∉ inner → motive after →
      motive (.marker r.opening :: (inner ++ .marker r.closing :: after)))
    (alone : ∀ s rest, r.IsMarker s → (s = .marker r.opening → .marker r.closing ∉ rest) →
      motive rest → motive (s :: rest))
    (other : ∀ s rest, ¬ r.IsMarker s → motive rest → motive (s :: rest))
    (segments : List Segment) : motive segments := by
  induction hn : segments.length using Nat.strongRecOn generalizing segments with
  | ind n ih =>
    subst hn
    rcases segments with _ | ⟨s, rest⟩
    · exact nil
    · by_cases hspan : s = .marker r.opening ∧ .marker r.closing ∈ rest
      · obtain ⟨rfl, hmem⟩ := hspan
        obtain ⟨inner, after, rfl, hinner⟩ := List.eq_append_cons_of_mem hmem
        exact span inner after hinner (ih _ (by simp; omega) after rfl)
      · have hrest := ih rest.length (by simp) rest rfl
        by_cases hs : r.IsMarker s
        · exact alone s rest hs (fun he hmem => hspan ⟨he, hmem⟩) hrest
        · exact other s rest hs hrest

end

/-! ## What is left -/

theorem left_sweep (r : Region) (segments : List Segment) :
    (sweep r segments).left = remaining r false segments := by
  induction segments using sweep_induction r with
  | nil => rw [sweep_nil, remaining]
  | span inner after hinner ih => rw [sweep_span hinner, remaining_bracket hinner, ih]
  | alone s rest hs hnone ih =>
    rw [sweep_alone hs hnone, ih, remaining]
    split
    · rename_i hopening
      have hclosing : rest.contains (.marker r.closing) = false := by
        simpa using hnone hopening
      rw [hclosing]
    · rename_i hopening
      rw [if_pos (hs.resolve_left hopening)]
  | other s rest hs ih => rw [sweep_cons hs, remaining_cons hs, ih]

theorem not_isMarker_of_mem_left (r : Region) (segments : List Segment) :
    ∀ s ∈ (sweep r segments).left, ¬ r.IsMarker s := by
  induction segments using sweep_induction r with
  | nil => simp [sweep_nil]
  | span inner after hinner ih =>
    rw [sweep_span hinner]
    exact ih
  | alone s rest hs hnone ih =>
    rw [sweep_alone hs hnone]
    exact ih
  | other s rest hs ih =>
    rw [sweep_cons hs]
    intro x hx
    rcases List.mem_cons.1 hx with rfl | hx
    · exact hs
    · exact ih x hx

/-! ## What is skipped -/

section

variable {r : Region}

theorem skipped_append {before : List Segment} (h : .marker r.opening ∉ before)
    (after : List Segment) : (sweep r (before ++ after)).skipped = (sweep r after).skipped := by
  induction before with
  | nil => rfl
  | cons s before ih =>
    simp only [List.mem_cons, not_or] at h
    rw [List.cons_append, ← ih h.2]
    by_cases hs : r.IsMarker s
    · rw [sweep_alone hs fun he => absurd he.symm h.1]
    · rw [sweep_cons hs]

/-- Without a closing marker nothing is skipped. -/
theorem skipped_eq_nil {segments : List Segment} (h : .marker r.closing ∉ segments) :
    (sweep r segments).skipped = [] := by
  induction segments with
  | nil => rw [sweep_nil]
  | cons s rest ih =>
    have hrest : .marker r.closing ∉ rest := fun hmem => h (List.mem_cons_of_mem s hmem)
    by_cases hs : r.IsMarker s
    · rw [sweep_alone hs fun _ => hrest, ih hrest]
    · rw [sweep_cons hs, ih hrest]

end

theorem extract_eq (t : Template) (r : Region) :
    t.extract r = (sweep r t.segments).skipped.head?.map renderSegments := by
  unfold extract
  rcases hspan : firstSpan? r t.segments with _ | ⟨i, j⟩
  · have hnone := skipped_append (firstSpan?_eq_none_iff.1 hspan) []
    rw [List.append_nil, sweep_nil] at hnone
    rw [hnone]
    rfl
  · obtain ⟨before, after, hsegments, rfl, hbefore, hclosing⟩ := exists_of_firstSpan? hspan
    rw [hsegments, skipped_append hbefore]
    rcases hclosing with ⟨rfl, hnone⟩ | ⟨inner, rest, rfl, rfl, hinner⟩
    · rw [sweep_alone (.inl rfl) fun _ => hnone, skipped_eq_nil hnone]
      rfl
    · have hlist : before ++ .marker r.opening :: (inner ++ .marker r.closing :: rest) =
          (before ++ .marker r.opening :: inner) ++ .marker r.closing :: rest := by simp
      have hinside : ((before ++ .marker r.opening :: (inner ++ .marker r.closing :: rest)).take
          (before.length + 1 + inner.length)).drop (before.length + 1) = inner := by
        rw [hlist, List.take_left' (by simp; omega)]
        simp [List.drop_append]
      simp only [hinside]
      rw [sweep_span hinner]
      rfl

/-! ## Rounds -/

/-- One round of deleting a region: the first occurrence goes, or the first opening marker alone. -/
def deleteOnce? (r : Region) (t : Template) : Option Template :=
  (firstSpan? r t.segments).map fun (i, j) => removeAll (spanPlaces i j) t

/-- Some number of rounds lead from the first template to the second. -/
inductive Rounds (r : Region) : Nat → Template → Template → Prop
  | done (t : Template) : Rounds r 0 t t
  | more {n : Nat} {t shorter last : Template} (h : deleteOnce? r t = some shorter)
      (later : Rounds r n shorter last) : Rounds r (n + 1) t last

/-- The rounds come to an end, and then the closing markers go that are still there. -/
theorem exists_rounds (r : Region) (t : Template) :
    ∃ n ≤ t.segments.length, ∃ last, Rounds r n t last ∧ deleteOnce? r last = none ∧
      t.delete r = (last.removeWhere (· = r.closing)).1 := by
  induction t using delete.induct r with
  | case1 t i j h ih =>
    obtain ⟨n, hn, last, hrounds, hlast, heq⟩ := ih
    have hshorter := length_removeSpan_lt h
    refine ⟨n + 1, by omega, last, .more (by rw [deleteOnce?, h]; rfl) hrounds, hlast, ?_⟩
    rw [delete_of_some h, heq]
  | case2 t h =>
    exact ⟨0, Nat.zero_le _, t, .done t, by rw [deleteOnce?, h]; rfl, delete_of_none h⟩

/-- Deleting a region comes to an end, leaves what one scan leaves, and no marker of the region. The
extracted text is what the scan skips first, and there is none if it skips nothing. -/
theorem delete_eq_sweep (t : Template) (r : Region) :
    (∃ n ≤ t.segments.length, ∃ last, Rounds r n t last ∧ deleteOnce? r last = none ∧
      t.delete r = (last.removeWhere (· = r.closing)).1) ∧
    (t.delete r).segments = (sweep r t.segments).left ∧
    ¬ (t.delete r).hasMarker r.opening ∧ ¬ (t.delete r).hasMarker r.closing ∧
    t.extract r = (sweep r t.segments).skipped.head?.map renderSegments ∧
    (t.extract r = none ↔ (sweep r t.segments).skipped = []) := by
  have hleft : (t.delete r).segments = (sweep r t.segments).left := by
    rw [left_sweep]
    exact segments_toggle t r false
  have hgone : ∀ m, r.IsMarker (.marker m) → ¬ (t.delete r).hasMarker m := by
    intro m hm hmem
    rw [hasMarker, List.contains_iff_mem, mem_markers, hleft] at hmem
    exact not_isMarker_of_mem_left r t.segments _ hmem hm
  refine ⟨exists_rounds r t, hleft, hgone _ (.inl rfl), hgone _ (.inr rfl), extract_eq t r, ?_⟩
  rw [extract_eq, Option.map_eq_none_iff, List.head?_eq_none_iff]

end Template

end SkillCompiler
