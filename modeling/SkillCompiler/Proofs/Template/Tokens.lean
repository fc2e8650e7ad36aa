import SkillCompiler.Proofs.Template.Outline

/-!
# Templates as text

Cutting text at its markers loses nothing (`renderSegments_segmentsOf`), and text without a marker
token is one literal segment (`segmentsOf_of_markerFree`). Clearing an anchor takes it out of the
segments and leaves all others (`segments_clearAnchor`).
-/

namespace SkillCompiler

/-- The name is one that markers can have. -/
def Marker.IsNamed (m : Marker) : Prop :=
  ∃ c tail, m.name.toList = c :: tail ∧ Marker.isHead c ∧ ∀ d ∈ tail, Marker.isTail d

/-- No marker token occurs in the text. -/
def MarkerFree (text : String) : Prop :=
  ∀ m : Marker, m.IsNamed → ¬ m.tokenChars <:+: text.toList

theorem markerAt?_isNamed {text rest : List Char} {m : Marker}
    (h : markerAt? text = some (m, rest)) : m.IsNamed := by
  obtain ⟨style, -, hs⟩ := List.exists_of_findSome?_eq_some h
  unfold styledAt? at hs
  split at hs
  · rename_i c body hb
    split at hs
    · rename_i hc
      simp only [Option.map_eq_some_iff, Prod.mk.injEq] at hs
      obtain ⟨r, -, rfl, -⟩ := hs
      refine ⟨c, body.takeWhile Marker.isTail, by simp, hc, fun d hd => ?_⟩
      exact List.all_eq_true.1 List.all_takeWhile d hd
    · simp at hs
  · simp at hs

/-- A text whose characters start no token has none. -/
theorem markerFree_of_all {text : String} (h : text.toList.all (· ∉ ['/', '#', '<'])) :
    MarkerFree text := by
  intro m _ hm
  have hnone : ∀ c ∈ m.tokenChars, c ∉ ['/', '#', '<'] := fun c hc => by
    simpa using List.all_eq_true.1 h c (hm.subset hc)
  obtain ⟨style, name⟩ := m
  cases style with
  | block => exact hnone '/' (by simp [Marker.tokenChars, MarkerStyle.opening]) (by simp)
  | hash => exact hnone '#' (by simp [Marker.tokenChars, MarkerStyle.opening]) (by simp)
  | angle => exact hnone '<' (by simp [Marker.tokenChars, MarkerStyle.opening]) (by simp)

/-! ## Reading and writing -/

theorem renderSegments_eq_join (segments : List Segment) :
    renderSegments segments = String.join (segments.map Segment.render) := by
  rw [renderSegments, String.join, List.foldl_map]

theorem renderSegments_append (a b : List Segment) :
    renderSegments (a ++ b) = renderSegments a ++ renderSegments b := by
  rw [renderSegments_eq_join, renderSegments_eq_join, renderSegments_eq_join, List.map_append,
    String.join_append]

theorem renderSegments_cons (s : Segment) (segments : List Segment) :
    renderSegments (s :: segments) = s.render ++ renderSegments segments := by
  rw [renderSegments_eq_join, renderSegments_eq_join, List.map_cons, String.join_cons]

theorem renderSegments_literal (backwards : List Char) :
    renderSegments (literal backwards) = String.ofList backwards.reverse := by
  unfold literal
  split
  · rename_i h
    rw [h]
    rfl
  · rw [renderSegments_cons]
    exact String.append_empty

theorem renderSegments_segmentsFrom (before text : List Char) :
    renderSegments (segmentsFrom before text) = String.ofList (before.reverse ++ text) := by
  fun_induction segmentsFrom before text with
  | case1 before text m rest h ih =>
    rw [renderSegments_append, renderSegments_cons, ih, renderSegments_literal,
      markerAt?_eq_some h, Segment.render, Marker.token]
    simp [String.ofList_append]
  | case2 before h => rw [renderSegments_literal, List.append_nil]
  | case3 before c rest h ih => rw [ih, List.reverse_cons, List.append_assoc]; rfl

theorem renderSegments_segmentsOf (text : String) : renderSegments (segmentsOf text) = text := by
  rw [segmentsOf, renderSegments_segmentsFrom]
  simp

theorem segmentsFrom_nil (before : List Char) : segmentsFrom before [] = literal before := by
  rw [segmentsFrom]
  split
  · rename_i hm
    cases hm
  · rfl

/-- Text in which no marker begins is passed over. -/
theorem segmentsFrom_append {front text : List Char}
    (h : ∀ a b, front = a ++ b → b ≠ [] → markerAt? (b ++ text) = none) (before : List Char) :
    segmentsFrom before (front ++ text) = segmentsFrom (front.reverse ++ before) text := by
  induction front generalizing before with
  | nil => rfl
  | cons c front ih =>
    have hrest : ∀ a b, front = a ++ b → b ≠ [] → markerAt? (b ++ text) = none :=
      fun a b hab => h (c :: a) b (by rw [hab, List.cons_append])
    rw [List.reverse_cons, List.append_assoc, List.singleton_append, ← ih hrest (c :: before),
      List.cons_append, segmentsFrom]
    split
    · rename_i hm
      have hnone := h [] (c :: front) rfl (by simp)
      rw [List.cons_append, hm] at hnone
      simp at hnone
    · rfl

theorem segmentsOf_of_markerFree {text : String} (h : MarkerFree text) :
    segmentsOf text = literal text.toList.reverse := by
  have hnone : ∀ a b, text.toList = a ++ b → b ≠ [] → markerAt? (b ++ []) = none := by
    intro a b hab _
    rcases hm : markerAt? (b ++ []) with _ | ⟨m, rest⟩
    · rfl
    · refine absurd ?_ (h m (markerAt?_isNamed hm))
      rw [hab, ← List.append_nil b, markerAt?_eq_some hm]
      exact ⟨a, rest, List.append_assoc ..⟩
  have hpass := segmentsFrom_append hnone []
  rwa [List.append_nil, List.append_nil, segmentsFrom_nil] at hpass

/-- Nothing is inserted into text without markers. -/
theorem text_of_mem_segmentsOf {text : String} (h : MarkerFree text) {s : Segment}
    (hs : s ∈ segmentsOf text) : ∃ value, s = .text value := by
  rw [segmentsOf_of_markerFree h] at hs
  unfold literal at hs
  split at hs
  · simp at hs
  · exact ⟨_, List.mem_singleton.1 hs⟩

namespace Template

/-! ## Removing markers -/

theorem segment_removeMarked_map (p : Segment → Bool) :
    ∀ pieces : List Piece,
      (removeMarked ((pieces.map Piece.segment).map p) pieces).map Piece.segment =
        (pieces.map Piece.segment).filter fun s => !p s
  | [] => rfl
  | x :: pieces => by
    have ih := segment_removeMarked_map p pieces
    rw [List.map_cons, List.map_cons, removeMarked]
    cases hp : p x.segment
    · simpa [hp] using ih
    · simpa [hp] using ih

theorem segments_removeWhere (t : Template) (p : Marker → Bool) :
    (t.removeWhere p).1.segments = t.segments.filter fun s => !s.isMarker p := by
  have h := segment_removeMarked_map (Segment.isMarker p) t.pieces
  rwa [segment_pieces, ← pieces_removeWhere, segment_pieces] at h

theorem segments_clearAnchor (t : Template) (m : Marker) :
    (t.clearAnchor m).1.segments = t.segments.filter (· ≠ .marker m) := by
  rw [clearAnchor, segments_removeWhere, isMarker_eq]
  simp

theorem segments_foldl_clearAnchor :
    ∀ (ms : List Marker) (t : Template),
      (ms.foldl (fun t m => (t.clearAnchor m).1) t).segments =
        t.segments.filter fun s => ms.all (s ≠ .marker ·)
  | [], t => (List.filter_eq_self.2 fun _ _ => rfl).symm
  | m :: ms, t => by
    rw [List.foldl_cons, segments_foldl_clearAnchor ms, segments_clearAnchor, List.filter_filter]
    congr 1
    funext s
    simp [Bool.and_comm]

theorem exists_delete_eq (t : Template) (region : Region) :
    ∃ marks, t.delete region = ofPieces (removeMarked marks t.pieces) :=
  ⟨_, by rw [← pieces_delete_eq_removeMarked, ofPieces_pieces]⟩

theorem exists_toggle_eq (t : Template) (region : Region) (kept : Bool) :
    ∃ marks, t.toggle region kept = ofPieces (removeMarked marks t.pieces) := by
  unfold toggle
  split
  · exact ⟨_, by rw [keep, ← pieces_removeWhere, ofPieces_pieces]⟩
  · exact t.exists_delete_eq region

theorem mem_markers {t : Template} {m : Marker} : m ∈ t.markers ↔ .marker m ∈ t.segments := by
  rw [markers, List.mem_filterMap]
  constructor
  · rintro ⟨s, hs, he⟩
    cases s with
    | text v => simp at he
    | marker k =>
      simp only [Option.some.injEq] at he
      exact he ▸ hs
  · exact fun h => ⟨_, h, rfl⟩

/-! ## Templates into which nothing has been inserted -/

/-- Nothing has been inserted. -/
def IsFlat (t : Template) : Prop := ∀ p ∈ t.pieces, p.run = 0

theorem isFlat_parse (text : String) : (parse text).IsFlat := by
  intro p hp
  rw [pieces_parse] at hp
  obtain ⟨s, -, rfl⟩ := List.mem_map.1 hp
  rfl

theorem run_of_mem_removeMarked :
    ∀ (marks : List Bool) {pieces : List Piece}, (∀ p ∈ pieces, p.run = 0) →
      ∀ p ∈ removeMarked marks pieces, p.run = 0
  | [], _, h => h
  | _ :: _, [], h => h
  | mark :: marks, x :: pieces, h => by
    intro p hp
    have ih := run_of_mem_removeMarked marks fun q hq => h q (List.mem_cons_of_mem _ hq)
    rw [removeMarked] at hp
    split at hp
    · exact ih p hp
    · rcases List.mem_cons.1 hp with rfl | hp
      · simp [h x (List.mem_cons_self ..)]
      · exact ih p hp

theorem IsFlat.removeMarked {t : Template} (h : t.IsFlat) (marks : List Bool) :
    (ofPieces (removeMarked marks t.pieces)).IsFlat := by
  intro p hp
  rw [pieces_ofPieces] at hp
  exact run_of_mem_removeMarked marks h p hp

theorem IsFlat.pieces_eq {t : Template} (h : t.IsFlat) :
    t.pieces = (Forest.leaves t.segments).pieces := by
  rw [Forest.pieces_leaves, ← segment_pieces, List.map_map]
  conv => lhs; rw [← List.map_id t.pieces]
  refine List.map_congr_left fun p hp => ?_
  rw [Function.comp_apply, ← h p hp]
  rfl

/-! ## Inserting text without markers -/

theorem contributed_text (value : String) : ∀ insertions : List (Marker × String),
    contributed (.text value) insertions = .nil
  | [] => rfl
  | (anchor, payload) :: later => by
    rw [contributed, contributed_text value later]
    rfl

theorem preorder_insertAll_leaves (insertions : List (Marker × String)) :
    ∀ segments : List Segment,
      (insertAll (.leaves segments) insertions).preorder =
        segments.flatMap fun s => s :: (contributed s insertions).preorder
  | [] => by
    rw [Forest.leaves, insertAll_nil]
    rfl
  | s :: segments => by
    rw [Forest.leaves, insertAll_node, insertAll_nil, Forest.nil_append, Forest.preorder_node,
      preorder_insertAll_leaves insertions segments, List.flatMap_cons, List.cons_append]

/-- Texts without markers that are inserted at a marker follow it in the order of the calls. -/
theorem preorder_contributed (s : Segment) :
    ∀ {insertions : List (Marker × String)}, (∀ i ∈ insertions, MarkerFree i.2) →
      (contributed s insertions).preorder =
        (insertions.filter fun i => s = .marker i.1).flatMap fun i => segmentsOf i.2
  | [], _ => rfl
  | (anchor, payload) :: later, h => by
    have hlater := preorder_contributed s fun i hi => h i (List.mem_cons_of_mem _ hi)
    have hpayload : (insertAll (.leaves (segmentsOf payload)) later).preorder =
        segmentsOf payload := by
      rw [preorder_insertAll_leaves]
      have hsame : ∀ x ∈ segmentsOf payload, x :: (contributed x later).preorder = [x] := by
        intro x hx
        obtain ⟨value, rfl⟩ := text_of_mem_segmentsOf (h _ (List.mem_cons_self ..)) hx
        rw [contributed_text]
        rfl
      rw [List.flatMap_def, List.map_congr_left hsame, ← List.flatMap_def, List.flatMap_singleton']
    rw [contributed, Forest.preorder_append, hlater]
    by_cases hs : s = .marker anchor
    · rw [if_pos hs, hpayload, List.filter_cons_of_pos (by simpa using hs), List.flatMap_cons]
    · rw [if_neg hs, List.filter_cons_of_neg (by simpa using hs)]
      rfl

end Template

end SkillCompiler
