import SkillCompiler.Proofs.Forest
import SkillCompiler.Proofs.Template.Pieces

/-!
# Removing pieces from a template

Pieces are removed one by one, the last one first, and every removal corrects the runs that reach
over its place. Marks say once for all pieces which of them go: a removal of places is a removal of
marked pieces (`pieces_removeAll_markedPlaces`), two removals are one
(`removeMarked_removeMarked`), and deleting a region removes what `taken` marks
(`pieces_delete_eq_removeMarked`).
-/

namespace SkillCompiler

namespace Template

/-- Removes the marked pieces. A run loses the marked pieces it reaches over; pieces beyond the
marks stay. -/
def removeMarked : List Bool → List Piece → List Piece
  | [], pieces => pieces
  | _ :: _, [] => []
  | mark :: marks, p :: pieces =>
    if mark then removeMarked marks pieces
    else ⟨p.segment, p.run - (marks.take p.run).count true⟩ :: removeMarked marks pieces

/-- The places of the marks. -/
def markedPlaces : List Bool → List Nat
  | [] => []
  | mark :: marks => (if mark then [0] else []) ++ (markedPlaces marks).map (· + 1)

/-- Which segments are taken out with a region. `inside` says whether a region has been opened that
will be closed. -/
def taken (region : Region) : (inside : Bool) → List Segment → List Bool
  | _, [] => []
  | true, s :: rest => true :: taken region (s ≠ .marker region.closing) rest
  | false, s :: rest =>
    if s = .marker region.opening then
      true :: taken region (rest.contains (.marker region.closing)) rest
    else (s = .marker region.closing) :: taken region false rest

/-! ## Places and marks -/

/-- The run of a piece after edits behind it, where `f` is what one edit in its reach does to it. -/
def runAfter (f : Nat → Nat) (places : List Nat) (run : Nat) : Nat :=
  places.foldr (fun i r => if i + 1 ≤ r then f r else r) run

theorem runAfter_zero (f : Nat → Nat) (places : List Nat) : runAfter f places 0 = 0 := by
  induction places with
  | nil => rfl
  | cons i places ih =>
    unfold runAfter at ih ⊢
    rw [List.foldr_cons, ih]
    simp

/-- Edits are made from the right, so none of them moves a place that is still to come. -/
theorem runAfter_cons_succ {f : Nat → Nat} (hf : ∀ r, 0 < r → f (r + 1) = f r + 1) (mark : Bool)
    (marks : List Bool) (k : Nat) :
    runAfter f (markedPlaces (mark :: marks)) (k + 1) =
      if mark then f (runAfter f (markedPlaces marks) k + 1)
      else runAfter f (markedPlaces marks) k + 1 := by
  have hshift : ∀ is : List Nat,
      runAfter f (is.map (· + 1)) (k + 1) = runAfter f is k + 1 := by
    intro is
    induction is with
    | nil => rfl
    | cons i is ih =>
      unfold runAfter at ih ⊢
      rw [List.map_cons, List.foldr_cons, List.foldr_cons, ih]
      simp only [Nat.add_le_add_iff_right]
      split
      · rename_i hle
        exact hf _ (Nat.lt_of_lt_of_le (Nat.succ_pos i) hle)
      · rfl
  rw [markedPlaces]
  cases mark
  · exact hshift _
  · have hs := hshift (markedPlaces marks)
    unfold runAfter at hs ⊢
    rw [List.foldr_append, hs]
    simp

theorem count_take_le (marks : List Bool) (k : Nat) : (marks.take k).count true ≤ k :=
  Nat.le_trans List.count_le_length (List.length_take_le k marks)

/-- What removals behind a piece leave of its run. -/
theorem runAfter_pred (marks : List Bool) (run : Nat) :
    runAfter (· - 1) (markedPlaces marks) run = run - (marks.take run).count true := by
  induction marks generalizing run with
  | nil => simp [markedPlaces, runAfter]
  | cons mark marks ih =>
    cases run with
    | zero => rw [runAfter_zero]; simp
    | succ k =>
      have hle := count_take_le marks k
      rw [runAfter_cons_succ (fun r hr => by omega), ih, List.take_succ_cons]
      cases mark
      · simp
        omega
      · simp

/-- An edit behind a piece changes the piece's run and what follows it. -/
theorem foldr_map_succ (edit : Nat → List Piece → List Piece) (f : Nat → Nat)
    (he : ∀ i p pieces, edit (i + 1) (p :: pieces) =
      ⟨p.segment, if i + 1 ≤ p.run then f p.run else p.run⟩ :: edit i pieces)
    (p : Piece) (pieces : List Piece) :
    ∀ is : List Nat, (is.map (· + 1)).foldr edit (p :: pieces) =
      ⟨p.segment, runAfter f is p.run⟩ :: is.foldr edit pieces
  | [] => rfl
  | i :: is => by
    rw [List.map_cons, List.foldr_cons, foldr_map_succ edit f he p pieces is, he]
    rfl

theorem foldr_removeAt_markedPlaces :
    ∀ (marks : List Bool) (pieces : List Piece),
      (markedPlaces marks).foldr Piece.removeAt pieces = removeMarked marks pieces
  | [], _ => by simp [markedPlaces, removeMarked]
  | mark :: marks, [] => by
    have hnil : ∀ is : List Nat, is.foldr Piece.removeAt [] = [] := by
      intro is
      induction is with
      | nil => rfl
      | cons i is ih => rw [List.foldr_cons, ih, Piece.removeAt]
    rw [hnil, removeMarked]
  | mark :: marks, p :: pieces => by
    have hs := foldr_map_succ Piece.removeAt (· - 1) (fun _ _ _ => rfl) p pieces
      (markedPlaces marks)
    rw [runAfter_pred, foldr_removeAt_markedPlaces marks pieces] at hs
    rw [markedPlaces, List.foldr_append, hs]
    cases mark <;> simp [removeMarked, Piece.removeAt]

theorem pieces_removeAll (t : Template) :
    ∀ is : List Nat, (removeAll is t).pieces = is.foldr Piece.removeAt t.pieces
  | [] => rfl
  | i :: is => by
    rw [List.foldr_cons, ← pieces_removeAll t is, ← pieces_removeSegment]
    rfl

theorem pieces_removeAll_markedPlaces (marks : List Bool) (t : Template) :
    (removeAll (markedPlaces marks) t).pieces = removeMarked marks t.pieces := by
  rw [pieces_removeAll, foldr_removeAt_markedPlaces]

theorem filter_zipIdx_eq_markedPlaces {α : Type} (f : α → Bool) :
    ∀ (l : List α) (n : Nat),
      ((l.zipIdx n).filter fun (a, _) => f a).map Prod.snd = (markedPlaces (l.map f)).map (· + n)
  | [], _ => rfl
  | a :: l, n => by
    have ih := filter_zipIdx_eq_markedPlaces f l (n + 1)
    have hm : (markedPlaces (l.map f)).map (· + (n + 1)) =
        ((markedPlaces (l.map f)).map (· + 1)).map (· + n) := by
      rw [List.map_map]
      exact List.map_congr_left fun k _ => by simp; omega
    rw [hm] at ih
    rw [List.zipIdx_cons, List.map_cons, markedPlaces, List.map_append, ← ih]
    cases hf : f a <;> simp [hf]

theorem places_eq_markedPlaces (t : Template) (p : Marker → Bool) :
    t.places p = markedPlaces (t.segments.map (Segment.isMarker p)) := by
  have hplaces := filter_zipIdx_eq_markedPlaces (Segment.isMarker p) t.segments 0
  simpa [places] using hplaces

theorem pieces_removeWhere (t : Template) (p : Marker → Bool) :
    (t.removeWhere p).1.pieces =
      removeMarked (t.segments.map (Segment.isMarker p)) t.pieces := by
  rw [removeWhere, places_eq_markedPlaces, pieces_removeAll_markedPlaces]

/-! ## One removal after another -/

/-- Marks for all pieces, from the marks of a first removal and marks for what that leaves. -/
def mergeMarks : List Bool → List Bool → List Bool
  | [], marks => marks
  | true :: first, marks => true :: mergeMarks first marks
  | false :: first, [] => false :: mergeMarks first []
  | false :: first, mark :: marks => mark :: mergeMarks first marks

theorem count_take_mergeMarks :
    ∀ (first marks : List Bool) (k : Nat),
      ((mergeMarks first marks).take k).count true =
        (first.take k).count true + (marks.take (k - (first.take k).count true)).count true
  | _, _, 0 => by simp
  | [], marks, k + 1 => by simp [mergeMarks]
  | true :: first, marks, k + 1 => by
    have ih := count_take_mergeMarks first marks k
    simp [mergeMarks, ih]
    omega
  | false :: first, [], k + 1 => by
    have ih := count_take_mergeMarks first [] k
    simpa [mergeMarks] using ih
  | false :: first, mark :: marks, k + 1 => by
    have ih := count_take_mergeMarks first marks k
    have hle := count_take_le first k
    have hsub : k + 1 - (first.take k).count true = (k - (first.take k).count true) + 1 := by omega
    cases mark <;> simp [mergeMarks, ih, hsub]
    omega

theorem removeMarked_nil : ∀ marks : List Bool, removeMarked marks [] = []
  | [] => rfl
  | _ :: _ => rfl

theorem mergeMarks_nil : ∀ first : List Bool, mergeMarks first [] = first
  | [] => rfl
  | true :: first => by rw [mergeMarks, mergeMarks_nil first]
  | false :: first => by rw [mergeMarks, mergeMarks_nil first]

theorem removeMarked_removeMarked :
    ∀ (first marks : List Bool) (pieces : List Piece),
      removeMarked marks (removeMarked first pieces) =
        removeMarked (mergeMarks first marks) pieces
  | [], _, _ => rfl
  | mark :: first, marks, [] => by
    rw [removeMarked_nil, removeMarked_nil, removeMarked_nil]
  | true :: first, marks, p :: pieces => by
    rw [removeMarked, if_pos rfl, removeMarked_removeMarked first marks pieces, mergeMarks,
      removeMarked, if_pos rfl]
  | false :: first, [], p :: pieces => by rw [mergeMarks_nil, removeMarked]
  | false :: first, true :: marks, p :: pieces => by
    rw [removeMarked, if_neg Bool.false_ne_true, removeMarked, if_pos rfl,
      removeMarked_removeMarked first marks pieces, mergeMarks, removeMarked, if_pos rfl]
  | false :: first, false :: marks, p :: pieces => by
    rw [removeMarked, if_neg Bool.false_ne_true, removeMarked, if_neg Bool.false_ne_true,
      removeMarked_removeMarked first marks pieces, mergeMarks, removeMarked,
      if_neg Bool.false_ne_true, count_take_mergeMarks, Nat.sub_add_eq]

/-! ## Deleting a region -/

theorem markedPlaces_false (marks : List Bool) :
    ∀ i : Nat, markedPlaces (List.replicate i false ++ marks) = (markedPlaces marks).map (· + i)
  | 0 => by simp
  | i + 1 => by
    rw [List.replicate_succ, List.cons_append, markedPlaces, markedPlaces_false marks i,
      List.map_map]
    exact List.map_congr_left fun k _ => by simp; omega

theorem markedPlaces_true : ∀ n : Nat, markedPlaces (List.replicate n true) = List.range' 0 n
  | 0 => rfl
  | n + 1 => by
    have hs : (fun k => k + 1) = (1 + ·) := funext fun k => Nat.add_comm k 1
    rw [List.replicate_succ, markedPlaces, markedPlaces_true n, List.range'_succ, if_pos rfl, hs,
      List.map_add_range']
    rfl

/-- The marks of a region that starts at a place. -/
def spanMarks (i : Nat) : Option Nat → List Bool
  | some j => List.replicate i false ++ List.replicate (j + 1 - i) true
  | none => List.replicate i false ++ [true]

theorem spanPlaces_eq_markedPlaces (i : Nat) (j : Option Nat) :
    spanPlaces i j = markedPlaces (spanMarks i j) := by
  cases j with
  | some j =>
    rw [spanPlaces, spanMarks, markedPlaces_false, markedPlaces_true]
    simp [Nat.add_comm, List.map_add_range']
  | none => simp [spanPlaces, spanMarks, markedPlaces_false, markedPlaces]

theorem segment_removeMarked (n : Nat) :
    ∀ (i : Nat) (pieces : List Piece),
      (removeMarked (List.replicate i false ++ List.replicate n true) pieces).map Piece.segment =
        (pieces.map Piece.segment).take i ++ (pieces.map Piece.segment).drop (i + n)
  | _, [] => by rw [removeMarked_nil]; simp
  | i + 1, p :: pieces => by
    rw [List.replicate_succ, List.cons_append, removeMarked, if_neg Bool.false_ne_true,
      List.map_cons, segment_removeMarked n i pieces, List.map_cons, List.take_succ_cons,
      Nat.add_right_comm, List.drop_succ_cons, List.cons_append]
  | 0, p :: pieces => by
    have hdrop : ∀ (n : Nat) (ps : List Piece),
        removeMarked (List.replicate n true) ps = ps.drop n := by
      intro n
      induction n with
      | zero => exact fun ps => rfl
      | succ n ih =>
        intro ps
        cases ps with
        | nil => rw [removeMarked_nil, List.drop_nil]
        | cons p ps => rw [List.replicate_succ, removeMarked, if_pos rfl, ih, List.drop_succ_cons]
    rw [List.replicate_zero, List.nil_append, hdrop, List.map_drop, List.take_zero,
      List.nil_append, Nat.zero_add]

theorem mergeMarks_span (n : Nat) (after : List Bool) :
    ∀ before : List Bool,
      mergeMarks (List.replicate before.length false ++ List.replicate n true) (before ++ after) =
        before ++ (List.replicate n true ++ after)
  | [] => by
    induction n with
    | zero => rfl
    | succ n ih =>
      simp only [List.length_nil, List.replicate_zero, List.nil_append] at ih ⊢
      rw [List.replicate_succ, mergeMarks, ih, List.cons_append]
  | mark :: before => by
    rw [List.length_cons, List.replicate_succ, List.cons_append, List.cons_append, mergeMarks,
      mergeMarks_span n after before, List.cons_append]

theorem exists_of_findIdx? {α : Type} {f : α → Bool} :
    ∀ {l : List α} {i : Nat}, l.findIdx? f = some i →
      ∃ before a after, l = before ++ a :: after ∧ before.length = i ∧ f a ∧
        ∀ b ∈ before, f b = false
  | [], i, h => by simp at h
  | a :: l, i, h => by
    rw [List.findIdx?_cons] at h
    cases ha : f a with
    | true =>
      simp only [ha, if_true, Option.some.injEq] at h
      exact ⟨[], a, l, rfl, h, ha, by simp⟩
    | false =>
      simp only [ha, Bool.false_eq_true, if_false, Option.map_eq_some_iff] at h
      obtain ⟨k, hk, rfl⟩ := h
      obtain ⟨before, b, after, rfl, rfl, hb, hbefore⟩ := exists_of_findIdx? hk
      refine ⟨a :: before, b, after, rfl, rfl, hb, fun c hc => ?_⟩
      rcases List.mem_cons.1 hc with rfl | hc
      · exact ha
      · exact hbefore c hc

theorem taken_append {region : Region} {before : List Segment} (after : List Segment)
    (h : .marker region.opening ∉ before) :
    taken region false (before ++ after) =
      before.map (fun s => decide (s = .marker region.closing)) ++ taken region false after := by
  induction before with
  | nil => rfl
  | cons s before ih =>
    simp only [List.mem_cons, not_or] at h
    rw [List.cons_append, taken, if_neg (Ne.symm h.1), ih h.2, List.map_cons, List.cons_append]

theorem taken_true_append {region : Region} {inner : List Segment} (after : List Segment)
    (h : .marker region.closing ∉ inner) :
    taken region true (inner ++ .marker region.closing :: after) =
      List.replicate (inner.length + 1) true ++ taken region false after := by
  induction inner with
  | nil => simp [taken]
  | cons s inner ih =>
    simp only [List.mem_cons, not_or] at h
    have hs : (decide (s ≠ .marker region.closing)) = true := by simpa using Ne.symm h.1
    rw [List.cons_append, taken, hs, ih h.2]
    rfl

/-- Segments that are taken out whole may be taken out first. -/
theorem taken_span {region : Region} {before middle rest : List Segment} {pieces : List Piece}
    (hpieces : pieces.map Piece.segment = before ++ (middle ++ rest))
    (hbefore : .marker region.opening ∉ before)
    (hmiddle : taken region false (middle ++ rest) =
      List.replicate middle.length true ++ taken region false rest) :
    taken region false (before ++ (middle ++ rest)) =
      mergeMarks (List.replicate before.length false ++ List.replicate middle.length true)
        (taken region false ((removeMarked
          (List.replicate before.length false ++ List.replicate middle.length true)
          pieces).map Piece.segment)) := by
  have hrest : (removeMarked (List.replicate before.length false ++
      List.replicate middle.length true) pieces).map Piece.segment = before ++ rest := by
    rw [segment_removeMarked, hpieces, List.take_left, ← List.drop_drop, List.drop_left,
      List.drop_left]
  have hmerge := mergeMarks_span middle.length (taken region false rest)
    (before.map fun s => decide (s = .marker region.closing))
  rw [List.length_map] at hmerge
  rw [hrest, taken_append rest hbefore, hmerge, taken_append _ hbefore, hmiddle]

theorem firstSpan?_eq_none_iff {region : Region} {segments : List Segment} :
    firstSpan? region segments = none ↔ .marker region.opening ∉ segments := by
  simp only [firstSpan?, position?, Option.map_eq_none_iff, List.drop_zero,
    List.findIdx?_eq_none_iff, decide_eq_false_iff_not]
  exact ⟨fun h hm => h _ hm rfl, fun h s hs he => h (he ▸ hs)⟩

/-- A marker that is found stands behind segments that are not the marker. -/
theorem exists_of_findIdx?_marker {m : Marker} {segments : List Segment} {i : Nat}
    (h : segments.findIdx? (· = .marker m) = some i) :
    ∃ before after, segments = before ++ .marker m :: after ∧ before.length = i ∧
      .marker m ∉ before := by
  obtain ⟨before, s, after, rfl, rfl, hs, hbefore⟩ := exists_of_findIdx? h
  obtain rfl : s = .marker m := by simpa using hs
  exact ⟨before, after, rfl, rfl, fun hm => by simpa using hbefore _ hm⟩

/-- Where the first region stands: its opening marker, and the first closing marker after that if
there is one. -/
theorem exists_of_firstSpan? {region : Region} {segments : List Segment} {i : Nat}
    {j : Option Nat} (h : firstSpan? region segments = some (i, j)) :
    ∃ before after, segments = before ++ .marker region.opening :: after ∧ before.length = i ∧
      .marker region.opening ∉ before ∧
      ((j = none ∧ .marker region.closing ∉ after) ∨
        ∃ inner rest, after = inner ++ .marker region.closing :: rest ∧
          j = some (before.length + 1 + inner.length) ∧ .marker region.closing ∉ inner) := by
  simp only [firstSpan?, position?, Option.map_map, Option.map_eq_some_iff, Function.comp_def,
    List.drop_zero, Nat.zero_add, Prod.mk.injEq] at h
  obtain ⟨i, hi, rfl, hj⟩ := h
  obtain ⟨before, after, rfl, rfl, hbefore⟩ := exists_of_findIdx?_marker hi
  have hafter : (before ++ .marker region.opening :: after).drop (before.length + 1) = after := by
    simp [List.drop_append]
  rw [hafter] at hj
  refine ⟨before, after, rfl, rfl, hbefore, ?_⟩
  cases hclose : after.findIdx? (· = .marker region.closing) with
  | none =>
    rw [hclose, Option.map_none] at hj
    refine .inl ⟨hj.symm, fun hm => ?_⟩
    simpa using List.findIdx?_eq_none_iff.1 hclose _ hm
  | some k =>
    obtain ⟨inner, rest, rfl, rfl, hinner⟩ := exists_of_findIdx?_marker hclose
    rw [hclose, Option.map_some] at hj
    exact .inr ⟨inner, rest, rfl, hj.symm, hinner⟩

/-- What deleting a region takes out, given where the first region stands. -/
theorem taken_eq {region : Region} {pieces : List Piece} {i : Nat} {j : Option Nat}
    (h : firstSpan? region (pieces.map Piece.segment) = some (i, j)) :
    taken region false (pieces.map Piece.segment) =
      mergeMarks (spanMarks i j)
        (taken region false ((removeMarked (spanMarks i j) pieces).map Piece.segment)) := by
  obtain ⟨before, after, hpieces, rfl, hbefore, hclose⟩ := exists_of_firstSpan? h
  rcases hclose with ⟨rfl, hnone⟩ | ⟨inner, rest, rfl, rfl, hinner⟩
  · have hmiddle : taken region false ([.marker region.opening] ++ after) =
        List.replicate [Segment.marker region.opening].length true ++
          taken region false after := by
      rw [List.singleton_append, taken, if_pos rfl, List.contains_eq_mem, decide_eq_false hnone]
      rfl
    have hspan := taken_span hpieces hbefore hmiddle
    rwa [List.singleton_append, ← hpieces] at hspan
  · have hin := taken_true_append rest hinner
    have hmiddle : taken region false
        (.marker region.opening :: (inner ++ [.marker region.closing]) ++ rest) =
          List.replicate
            (Segment.marker region.opening :: (inner ++ [.marker region.closing])).length true ++
            taken region false rest := by
      rw [List.cons_append, List.append_assoc, List.singleton_append, taken, if_pos rfl,
        List.contains_eq_mem, decide_eq_true (by simp), hin]
      simp [List.replicate_succ]
    have hlist : Segment.marker region.opening :: (inner ++ .marker region.closing :: rest) =
        .marker region.opening :: (inner ++ [.marker region.closing]) ++ rest := by simp
    have hmarks : spanMarks before.length (some (before.length + 1 + inner.length)) =
        List.replicate before.length false ++ List.replicate
          (Segment.marker region.opening :: (inner ++ [.marker region.closing])).length true := by
      rw [spanMarks]
      congr 2
      simp only [List.length_cons, List.length_append, List.length_nil]
      omega
    rw [hlist] at hpieces
    have hspan := taken_span hpieces hbefore hmiddle
    rwa [hmarks, hpieces]

/-- A round of deleting. -/
theorem delete_of_some {region : Region} {t : Template} {i : Nat} {j : Option Nat}
    (h : firstSpan? region t.segments = some (i, j)) :
    t.delete region = (removeAll (spanPlaces i j) t).delete region := by
  rw [delete]
  split
  · rename_i i' j' h'
    rw [h, Option.some.injEq, Prod.mk.injEq] at h'
    rw [h'.1, h'.2]
  · rename_i h'
    simp [h] at h'

theorem delete_of_none {region : Region} {t : Template} (h : firstSpan? region t.segments = none) :
    t.delete region = (t.removeWhere (· = region.closing)).1 := by
  rw [delete]
  split
  · rename_i h'
    simp [h] at h'
  · rfl

theorem isMarker_eq (m : Marker) : Segment.isMarker (· = m) = fun s => decide (s = .marker m) := by
  funext s
  cases s <;> simp [Segment.isMarker]

theorem pieces_delete_eq_removeMarked (region : Region) (t : Template) :
    (t.delete region).pieces = removeMarked (taken region false t.segments) t.pieces := by
  induction t using delete.induct region with
  | case1 t i j h ih =>
    rw [delete_of_some h, ih, spanPlaces_eq_markedPlaces, ← segment_pieces,
      pieces_removeAll_markedPlaces, removeMarked_removeMarked]
    rw [← segment_pieces] at h
    rw [← taken_eq h, segment_pieces]
  | case2 t h =>
    have htaken := taken_append [] (firstSpan?_eq_none_iff.1 h)
    rw [List.append_nil] at htaken
    rw [delete_of_none h, pieces_removeWhere, isMarker_eq, htaken]
    simp [taken]

end Template

end SkillCompiler
