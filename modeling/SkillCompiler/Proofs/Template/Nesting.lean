import Mathlib.Data.List.Pairwise
import SkillCompiler.Proofs.Template.Tokens

/-!
# Nested regions

Toggling a region is one scan over the segments (`segments_toggle`). Where the markers of some
regions are brackets that are properly nested, each toggle settles the fate of one region and leaves
the other brackets as they are (`toggled_resolved`). What is left after all toggles are the segments
that stand in no deleted region (`segments_toggleAll`), whichever region came first
(`IsFlat.toggleAll_perm`).
-/

namespace SkillCompiler

namespace Region

/-- The segment is one of the two markers of the region. -/
def IsMarker (r : Region) (s : Segment) : Prop := s = .marker r.opening ∨ s = .marker r.closing

instance (r : Region) (s : Segment) : Decidable (r.IsMarker s) :=
  inferInstanceAs (Decidable (_ ∨ _))

/-- The regions have no marker in common. -/
def IsApart (r q : Region) : Prop :=
  r.opening ≠ q.opening ∧ r.opening ≠ q.closing ∧ r.closing ≠ q.opening ∧ r.closing ≠ q.closing

instance : DecidableRel IsApart := fun _ _ => inferInstanceAs (Decidable (_ ∧ _))

theorem IsApart.symm {r q : Region} (h : r.IsApart q) : q.IsApart r :=
  ⟨h.1.symm, h.2.2.1.symm, h.2.1.symm, h.2.2.2.symm⟩

instance : Std.Symm IsApart := ⟨fun _ _ => IsApart.symm⟩

theorem IsApart.not_isMarker {r q : Region} (h : r.IsApart q) :
    ¬ r.IsMarker (.marker q.opening) ∧ ¬ r.IsMarker (.marker q.closing) := by
  obtain ⟨h₁, h₂, h₃, h₄⟩ := h.symm
  simp [IsMarker, h₁, h₂, h₃, h₄]

theorem nodup_of_pairwise_isApart {regions : List Region} (h : regions.Pairwise IsApart) :
    regions.Nodup :=
  h.imp fun hab he => hab.1 (congrArg opening he)

end Region

namespace Template

/-! ## Toggling as a scan -/

/-- What deleting a region leaves of the segments, read from the left. `inside` says whether a
region has been opened that will be closed. -/
def remaining (r : Region) : (inside : Bool) → List Segment → List Segment
  | _, [] => []
  | true, s :: rest => remaining r (s ≠ .marker r.closing) rest
  | false, s :: rest =>
    if s = .marker r.opening then remaining r (rest.contains (.marker r.closing)) rest
    else if s = .marker r.closing then remaining r false rest
    else s :: remaining r false rest

/-- What toggling a region leaves of the segments. -/
def toggled (r : Region) (kept : Bool) (segments : List Segment) : List Segment :=
  if kept then segments.filter (¬ r.IsMarker ·) else remaining r false segments

theorem segments_removeMarked_taken (r : Region) :
    ∀ (inside : Bool) (pieces : List Piece),
      (removeMarked (taken r inside (pieces.map Piece.segment)) pieces).map Piece.segment =
        remaining r inside (pieces.map Piece.segment)
  | inside, [] => by cases inside <;> rfl
  | true, p :: pieces => by
    rw [List.map_cons, taken, remaining, removeMarked, if_pos rfl]
    exact segments_removeMarked_taken r _ pieces
  | false, p :: pieces => by
    rw [List.map_cons, taken, remaining]
    split
    · rw [removeMarked, if_pos rfl]
      exact segments_removeMarked_taken r _ pieces
    · have ih := segments_removeMarked_taken r false pieces
      by_cases hs : p.segment = .marker r.closing <;> simp [removeMarked, hs, ih]

theorem segments_toggle (t : Template) (r : Region) (kept : Bool) :
    (t.toggle r kept).segments = toggled r kept t.segments := by
  cases kept with
  | false =>
    have h := segments_removeMarked_taken r false t.pieces
    rwa [segment_pieces, ← pieces_delete_eq_removeMarked, segment_pieces] at h
  | true =>
    rw [toggle, if_pos rfl, keep, segments_removeWhere, isMarker_or, toggled, if_pos rfl]
    refine List.filter_congr fun s _ => ?_
    simp [Region.IsMarker]

theorem remaining_cons {r : Region} {s : Segment} (h : ¬ r.IsMarker s) (after : List Segment) :
    remaining r false (s :: after) = s :: remaining r false after := by
  simp only [Region.IsMarker, not_or] at h
  rw [remaining, if_neg h.1, if_neg h.2]

theorem remaining_inside {r : Region} {inner : List Segment} (h : .marker r.closing ∉ inner)
    (after : List Segment) :
    remaining r true (inner ++ .marker r.closing :: after) = remaining r false after := by
  induction inner with
  | nil => simp [remaining]
  | cons s inner ih =>
    simp only [List.mem_cons, not_or] at h
    rw [List.cons_append, remaining, decide_eq_true (Ne.symm h.1), ih h.2]

theorem remaining_bracket {r : Region} {inner : List Segment} (h : .marker r.closing ∉ inner)
    (after : List Segment) :
    remaining r false (.marker r.opening :: (inner ++ .marker r.closing :: after)) =
      remaining r false after := by
  have hclosed : (inner ++ .marker r.closing :: after).contains (.marker r.closing) = true := by
    simp
  rw [remaining, if_pos rfl, hclosed, remaining_inside h]

end Template

/-! ## Brackets -/

/-- Segments with nested regions, each between its two markers. -/
inductive Nesting where
  | nil
  | segment (s : Segment) (rest : Nesting)
  | region (r : Region) (inner rest : Nesting)
  deriving DecidableEq, Repr

namespace Nesting

def segments : Nesting → List Segment
  | nil => []
  | segment s rest => s :: rest.segments
  | region r inner rest =>
    .marker r.opening :: (inner.segments ++ .marker r.closing :: rest.segments)

/-- The regions, one for each occurrence. -/
def regions : Nesting → List Region
  | nil => []
  | segment _ rest => rest.regions
  | region r inner rest => r :: (inner.regions ++ rest.regions)

/-- All markers of the given regions are brackets of the nesting, and no region has an occurrence
inside another one. -/
def IsProper (given : List Region) : Nesting → Prop
  | nil => True
  | segment s rest => (∀ r ∈ given, ¬ r.IsMarker s) ∧ rest.IsProper given
  | region r inner rest =>
    r ∈ given ∧ r ∉ inner.regions ∧ inner.IsProper given ∧ rest.IsProper given

instance decidableIsProper (given : List Region) : ∀ n : Nesting, Decidable (n.IsProper given)
  | nil => inferInstanceAs (Decidable True)
  | segment _ rest =>
    have := decidableIsProper given rest
    inferInstanceAs (Decidable (_ ∧ _))
  | region _ inner rest =>
    have := decidableIsProper given inner
    have := decidableIsProper given rest
    inferInstanceAs (Decidable (_ ∧ _ ∧ _ ∧ _))

/-- The segments that stand in no deleted region, without brackets. -/
def outside (deleted : Region → Bool) : Nesting → List Segment
  | nil => []
  | segment s rest => s :: rest.outside deleted
  | region r inner rest =>
    (if deleted r then [] else inner.outside deleted) ++ rest.outside deleted

/-- The segments while regions are being toggled: `fate` says which have been kept and which have
been deleted. The others still have their brackets. -/
def resolved (fate : Region → Option Bool) : Nesting → List Segment
  | nil => []
  | segment s rest => s :: rest.resolved fate
  | region r inner rest =>
    match fate r with
    | none => .marker r.opening :: (inner.resolved fate ++ .marker r.closing :: rest.resolved fate)
    | some true => inner.resolved fate ++ rest.resolved fate
    | some false => rest.resolved fate

theorem resolved_none (n : Nesting) : n.resolved (fun _ => none) = n.segments := by
  induction n with
  | nil => rfl
  | segment s rest ih => rw [resolved, ih, segments]
  | region r inner rest ihi ihr => rw [resolved, ihi, ihr, segments]

theorem IsProper.regions_subset {given : List Region} {n : Nesting} (hn : n.IsProper given) :
    n.regions ⊆ given := by
  induction n with
  | nil => exact List.nil_subset _
  | segment s rest ih => exact ih hn.2
  | region r inner rest ihi ihr =>
    obtain ⟨hr, -, hinner, hrest⟩ := hn
    exact List.cons_subset.2 ⟨hr, List.append_subset.2 ⟨ihi hinner, ihr hrest⟩⟩

theorem resolved_eq_outside {fate : Region → Option Bool} {deleted : Region → Bool} {n : Nesting}
    (hfate : ∀ r ∈ n.regions, fate r = some (!deleted r)) :
    n.resolved fate = n.outside deleted := by
  induction n with
  | nil => rfl
  | segment s rest ih => rw [resolved, ih hfate, outside]
  | region r inner rest ihi ihr =>
    simp only [regions, List.mem_cons, List.mem_append] at hfate
    rw [resolved, hfate r (.inl rfl), outside, ← ihi fun q hq => hfate q (.inr (.inl hq)),
      ← ihr fun q hq => hfate q (.inr (.inr hq))]
    cases deleted r <;> rfl

section Toggling

variable {given : List Region} {r : Region} (hgiven : given.Pairwise Region.IsApart)
  (hr : r ∈ given)

include hgiven hr

theorem isApart_of_ne {q : Region} (hq : q ∈ given) (hne : q ≠ r) : r.IsApart q :=
  hgiven.forall hr hq (Ne.symm hne)

theorem not_isMarker_of_mem_resolved (fate : Region → Option Bool) {n : Nesting}
    (hn : n.IsProper given) (hnone : r ∉ n.regions) :
    ∀ s ∈ n.resolved fate, ¬ r.IsMarker s := by
  induction n with
  | nil => simp [resolved]
  | segment s rest ih =>
    intro x hx
    rcases List.mem_cons.1 hx with rfl | hx
    · exact hn.1 r hr
    · exact ih hn.2 hnone x hx
  | region q inner rest ihi ihr =>
    obtain ⟨hq, -, hinner, hrest⟩ := hn
    simp only [regions, List.mem_cons, List.mem_append, not_or] at hnone
    obtain ⟨hne, hri, hrr⟩ := hnone
    obtain ⟨hopen, hclose⟩ := (isApart_of_ne hgiven hr hq (Ne.symm hne)).not_isMarker
    have hi := ihi hinner hri
    have hl := ihr hrest hrr
    intro x hx
    rw [resolved] at hx
    split at hx
    · simp only [List.mem_cons, List.mem_append] at hx
      rcases hx with rfl | hx | rfl | hx
      · exact hopen
      · exact hi x hx
      · exact hclose
      · exact hl x hx
    · exact (List.mem_append.1 hx).elim (hi x) (hl x)
    · exact hl x hx

variable {fate : Region → Option Bool} (hfate : fate r = none)

include hfate

theorem remaining_resolved_append {n : Nesting} (hn : n.IsProper given) (tail : List Segment) :
    Template.remaining r false (n.resolved fate ++ tail) =
      n.resolved (Function.update fate r (some false)) ++ Template.remaining r false tail := by
  -- An open bracket is looked for its closing one in all that follows, hence the tail.
  induction n generalizing tail with
  | nil => rfl
  | segment s rest ih =>
    rw [resolved, resolved, List.cons_append, List.cons_append,
      Template.remaining_cons (hn.1 r hr), ih hn.2]
  | region q inner rest ihi ihr =>
    obtain ⟨hq, hnot, hinner, hrest⟩ := hn
    by_cases hqr : q = r
    · subst hqr
      -- The first closing marker is the partner, since no other `q` is inside.
      have hclose : .marker q.closing ∉ inner.resolved fate := fun hm =>
        not_isMarker_of_mem_resolved hgiven hr fate hinner hnot _ hm (Or.inr rfl)
      rw [resolved, resolved, hfate, Function.update_self]
      simp only [List.cons_append, List.append_assoc]
      rw [Template.remaining_bracket hclose, ihr hrest]
    · obtain ⟨hopen, hclose⟩ := (isApart_of_ne hgiven hr hq hqr).not_isMarker
      rw [resolved, resolved, Function.update_of_ne hqr]
      rcases fate q with _ | _ | _
      · simp only [List.cons_append, List.append_assoc]
        rw [Template.remaining_cons hopen, ihi hinner, Template.remaining_cons hclose, ihr hrest]
      · exact ihr hrest tail
      · simp only [List.append_assoc]
        rw [ihi hinner, ihr hrest]

theorem filter_resolved {n : Nesting} (hn : n.IsProper given) :
    (n.resolved fate).filter (¬ r.IsMarker ·) =
      n.resolved (Function.update fate r (some true)) := by
  induction n with
  | nil => rfl
  | segment s rest ih =>
    rw [resolved, resolved, List.filter_cons_of_pos (by simpa using hn.1 r hr), ih hn.2]
  | region q inner rest ihi ihr =>
    obtain ⟨hq, -, hinner, hrest⟩ := hn
    by_cases hqr : q = r
    · subst hqr
      rw [resolved, resolved, hfate, Function.update_self, ← ihi hinner, ← ihr hrest]
      simp [Region.IsMarker]
    · obtain ⟨hopen, hclose⟩ := (isApart_of_ne hgiven hr hq hqr).not_isMarker
      rw [resolved, resolved, Function.update_of_ne hqr, ← ihi hinner, ← ihr hrest]
      rcases fate q with _ | _ | _
      · simp [hopen, hclose]
      · rfl
      · simp

/-- One toggle settles the fate of its region. -/
theorem toggled_resolved {n : Nesting} (hn : n.IsProper given) (kept : Bool) :
    Template.toggled r kept (n.resolved fate) =
      n.resolved (Function.update fate r (some kept)) := by
  cases kept with
  | false =>
    have h := remaining_resolved_append hgiven hr hfate hn []
    simpa [Template.toggled, Template.remaining] using h
  | true => exact filter_resolved hgiven hr hfate hn

end Toggling

end Nesting

namespace Template

/-- Toggles regions one after the other. -/
def toggleAll (choices : List (Region × Bool)) (t : Template) : Template :=
  choices.foldl (fun t choice => t.toggle choice.1 choice.2) t

theorem IsFlat.toggleAll {t : Template} (ht : t.IsFlat) (choices : List (Region × Bool)) :
    (t.toggleAll choices).IsFlat := by
  induction choices generalizing t with
  | nil => exact ht
  | cons choice choices ih =>
    obtain ⟨marks, heq⟩ := t.exists_toggle_eq choice.1 choice.2
    have hstep : (t.toggle choice.1 choice.2).IsFlat := by
      rw [heq]
      exact ht.removeMarked marks
    exact ih hstep

theorem IsFlat.eq_of_segments {t u : Template} (ht : t.IsFlat) (hu : u.IsFlat)
    (h : t.segments = u.segments) : t = u := by
  have hp : t.pieces = u.pieces := by rw [ht.pieces_eq, hu.pieces_eq, h]
  rw [← ofPieces_pieces t, hp, ofPieces_pieces]

/-- The fate of each region after some toggles. -/
def fateAfter (choices : List (Region × Bool)) (fate : Region → Option Bool) :
    Region → Option Bool :=
  choices.foldl (fun fate choice => Function.update fate choice.1 (some choice.2)) fate

theorem fateAfter_of_notMem {r : Region} :
    ∀ {choices : List (Region × Bool)} (fate : Region → Option Bool),
      r ∉ choices.map Prod.fst → fateAfter choices fate r = fate r
  | [], _, _ => rfl
  | choice :: choices, fate, h => by
    simp only [List.map_cons, List.mem_cons, not_or] at h
    rw [fateAfter, List.foldl_cons]
    refine (fateAfter_of_notMem _ h.2).trans ?_
    rw [Function.update_of_ne h.1]

theorem fateAfter_of_mem {r : Region} {kept : Bool} :
    ∀ {choices : List (Region × Bool)} (fate : Region → Option Bool),
      (choices.map Prod.fst).Nodup → (r, kept) ∈ choices → fateAfter choices fate r = some kept
  | choice :: choices, fate, hnodup, h => by
    obtain ⟨hnot, hnodup⟩ := List.nodup_cons.1 hnodup
    rw [fateAfter, List.foldl_cons]
    rcases List.mem_cons.1 h with rfl | h
    · refine (fateAfter_of_notMem _ hnot).trans ?_
      rw [Function.update_self]
    · exact fateAfter_of_mem _ hnodup h

/-- What a run of toggles leaves, from any point on the way. -/
theorem segments_toggleAll_resolved {given : List Region} (hgiven : given.Pairwise Region.IsApart)
    {n : Nesting} (hn : n.IsProper given) :
    ∀ {choices : List (Region × Bool)} {fate : Region → Option Bool} {t : Template},
      choices.map Prod.fst ⊆ given → (choices.map Prod.fst).Nodup →
        (∀ r ∈ choices.map Prod.fst, fate r = none) → t.segments = n.resolved fate →
          (t.toggleAll choices).segments = n.resolved (fateAfter choices fate)
  | [], fate, t, _, _, _, ht => ht
  | choice :: choices, fate, t, hsub, hnodup, hnone, ht => by
    obtain ⟨hnot, hnodup⟩ := List.nodup_cons.1 hnodup
    obtain ⟨hr, hsub⟩ := List.cons_subset.1 hsub
    have hfate : fate choice.1 = none := hnone _ (List.mem_cons_self ..)
    have hstep : (t.toggle choice.1 choice.2).segments =
        n.resolved (Function.update fate choice.1 (some choice.2)) := by
      rw [segments_toggle, ht, Nesting.toggled_resolved hgiven hr hfate hn]
    have hlater : ∀ q ∈ choices.map Prod.fst,
        Function.update fate choice.1 (some choice.2) q = none := by
      intro q hq
      rw [Function.update_of_ne fun he : q = choice.1 => hnot (he ▸ hq)]
      exact hnone q (List.mem_cons_of_mem _ hq)
    exact (segments_toggleAll_resolved hgiven hn hsub hnodup hlater hstep :)

/-- Toggling each of the given regions once leaves what stands in no deleted region. -/
theorem segments_toggleAll {given : List Region} (hgiven : given.Pairwise Region.IsApart)
    {n : Nesting} (hn : n.IsProper given) {choices : List (Region × Bool)}
    (hchoices : (choices.map Prod.fst).Perm given) {t : Template} (ht : t.segments = n.segments) :
    (t.toggleAll choices).segments = n.outside fun r => (r, false) ∈ choices := by
  have hnodup : (choices.map Prod.fst).Nodup :=
    hchoices.nodup_iff.2 (Region.nodup_of_pairwise_isApart hgiven)
  have hrun := segments_toggleAll_resolved hgiven hn hchoices.subset hnodup
    (fun _ _ => rfl) (ht.trans n.resolved_none.symm)
  refine hrun.trans (Nesting.resolved_eq_outside fun r hr => ?_)
  obtain ⟨⟨q, kept⟩, hmem, rfl⟩ := List.mem_map.1 (hchoices.mem_iff.2 (hn.regions_subset hr))
  have hkept := fateAfter_of_mem (fun _ => none) hnodup hmem
  rw [hkept]
  cases kept with
  | false => simp [hmem]
  | true =>
    have hnot : (q, false) ∉ choices := by
      intro hfalse
      have hdeleted := fateAfter_of_mem (fun _ => none) hnodup hfalse
      rw [hkept] at hdeleted
      simp at hdeleted
    simp [hnot]

theorem IsFlat.toggleAll_perm {t : Template} (ht : t.IsFlat) {n : Nesting}
    (hsegments : t.segments = n.segments) {choices order : List (Region × Bool)}
    (hapart : (choices.map Prod.fst).Pairwise Region.IsApart)
    (hn : n.IsProper (choices.map Prod.fst)) (hperm : order.Perm choices) :
    t.toggleAll order = t.toggleAll choices := by
  refine (ht.toggleAll order).eq_of_segments (ht.toggleAll choices) ?_
  rw [segments_toggleAll hapart hn (hperm.map _) hsegments,
    segments_toggleAll hapart hn (.refl _) hsegments]
  simp only [hperm.mem_iff]

end Template

end SkillCompiler
