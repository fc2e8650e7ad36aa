import SkillCompiler.Proofs.Template.Literals

/-!
# The cut of a text

Text is cut into literals and markers. The literals are not empty, no two of them are neighbours,
and no token occurs in one. This alone does not say where the cuts are, because two tokens may
overlap (`cut_not_unique`). The cut is the only one in which moreover no token begins in a literal,
not even one that ends beyond it (`parse_normal`).
-/

namespace SkillCompiler

/-- No literal is empty, stands next to another one or holds a token, and the markers are named as
markers can be. -/
def IsCut : List Segment → Prop
  | [] => True
  | .marker m :: rest => m.IsNamed ∧ IsCut rest
  | .text value :: rest =>
    value ≠ "" ∧ MarkerFree value ∧ (∀ next, rest.head? ≠ some (.text next)) ∧ IsCut rest

/-- No token begins in the front of a text. It may end behind it. -/
def NoneBegins (front after : List Char) : Prop :=
  ∀ a b, front = a ++ b → b ≠ [] → ∀ m : Marker, m.IsNamed → ¬ m.tokenChars <+: b ++ after

/-- No token of the whole text begins in a literal. -/
def IsLeftmost : List Segment → Prop
  | [] => True
  | .marker _ :: rest => IsLeftmost rest
  | .text value :: rest =>
    NoneBegins value.toList (renderSegments rest).toList ∧ IsLeftmost rest

/-! ## Where no token begins -/

theorem markerAt?_eq_none_iff {text : List Char} :
    markerAt? text = none ↔ ∀ m : Marker, m.IsNamed → ¬ m.tokenChars <+: text := by
  constructor
  · rintro h m hm ⟨rest, rfl⟩
    rw [markerAt?_tokenChars hm] at h
    cases h
  · intro h
    rcases hm : markerAt? text with _ | ⟨m, rest⟩
    · rfl
    · exact absurd ⟨rest, (markerAt?_eq_some hm).symm⟩ (h m (markerAt?_isNamed hm))

theorem passed_iff {before text : List Char} :
    Passed before text ↔ NoneBegins before.reverse text := by
  simp only [Passed, NoneBegins, markerAt?_eq_none_iff]

theorem NoneBegins.markerFree {value : String} {after : List Char}
    (h : NoneBegins value.toList after) : MarkerFree value := by
  have hpassed : Passed value.toList.reverse after := by
    rwa [passed_iff, List.reverse_reverse]
  simpa using hpassed.markerFree

/-- A text that is shorter than any token. -/
theorem noneBegins_of_length {front after : List Char} (h : (front ++ after).length < 3) :
    NoneBegins front after := by
  rintro a b rfl - m ⟨c, tail, hname, -⟩ hprefix
  have hle := hprefix.length_le
  have hlen : 3 ≤ m.tokenChars.length := by
    obtain ⟨style, name⟩ := m
    cases style <;> simp [Marker.tokenChars, MarkerStyle.opening, MarkerStyle.closing, hname]
  simp only [List.length_append] at h hle
  omega

/-! ## What text is cut into -/

theorem toList_renderSegments_cons (s : Segment) (segments : List Segment) :
    (renderSegments (s :: segments)).toList =
      s.render.toList ++ (renderSegments segments).toList := by
  rw [renderSegments_cons, String.toList_append]

theorem toList_render_marker (m : Marker) : (Segment.marker m).render.toList = m.tokenChars := by
  simp [Segment.render, Marker.token]

theorem isCut_literal_append {before : List Char} {segments : List Segment}
    (hpassed : Passed before (renderSegments segments).toList)
    (hhead : ∀ next, segments.head? ≠ some (.text next))
    (h : IsCut segments ∧ IsLeftmost segments) :
    IsCut (literal before ++ segments) ∧ IsLeftmost (literal before ++ segments) := by
  unfold literal
  split
  · exact h
  · rename_i hne
    have hvalue : String.ofList before.reverse ≠ "" := by
      intro he
      have hnil := congrArg String.toList he
      simp [hne] at hnil
    have hbegins : NoneBegins (String.ofList before.reverse).toList
        (renderSegments segments).toList := by
      rwa [String.toList_ofList, ← passed_iff]
    exact ⟨⟨hvalue, hbegins.markerFree, hhead, h.1⟩, hbegins, h.2⟩

theorem Passed.isCut {before text : List Char} (h : Passed before text) :
    IsCut (segmentsFrom before text) ∧ IsLeftmost (segmentsFrom before text) := by
  fun_induction segmentsFrom before text with
  | case1 before text m rest hm ih =>
    obtain ⟨hcut, hleftmost⟩ := ih (passed_nil rest)
    refine isCut_literal_append ?_ (by simp) ⟨⟨markerAt?_isNamed hm, hcut⟩, hleftmost⟩
    rw [toList_renderSegments_cons, renderSegments_segmentsFrom, toList_render_marker]
    simpa [← markerAt?_eq_some hm] using h
  | case2 before hm =>
    rw [← List.append_nil (literal before)]
    exact isCut_literal_append h (by simp) ⟨trivial, trivial⟩
  | case3 before c rest hm ih => exact ih (h.cons hm)

theorem IsCut.markerFree_of_mem : ∀ {segments : List Segment}, IsCut segments →
    ∀ {value : String}, .text value ∈ segments → MarkerFree value
  | .marker m :: rest, h, value, hv => by
    rcases List.mem_cons.1 hv with hv | hv
    · cases hv
    · exact h.2.markerFree_of_mem hv
  | .text _ :: rest, ⟨_, hfree, _, h⟩, value, hv => by
    rcases List.mem_cons.1 hv with hv | hv
    · cases hv
      exact hfree
    · exact h.markerFree_of_mem hv

theorem markerFree_of_mem_segmentsOf {text value : String} (h : .text value ∈ segmentsOf text) :
    MarkerFree value :=
  (passed_nil text.toList).isCut.1.markerFree_of_mem h

/-! ## No other cut -/

theorem segmentsFrom_tokenChars {m : Marker} (h : m.IsNamed) (before rest : List Char) :
    segmentsFrom before (m.tokenChars ++ rest) =
      literal before ++ .marker m :: segmentsFrom [] rest := by
  rw [segmentsFrom]
  split
  · rename_i m' rest' hm
    rw [markerAt?_tokenChars h, Option.some.injEq, Prod.mk.injEq] at hm
    rw [hm.1, hm.2]
  · rename_i hm
    rw [markerAt?_tokenChars h] at hm
    cases hm

/-- A literal ends where a marker stands. -/
theorem segmentsFrom_renderSegments (before : List Char) {segments : List Segment}
    (hcut : IsCut segments) (hhead : ∀ next, segments.head? ≠ some (.text next)) :
    segmentsFrom before (renderSegments segments).toList =
      literal before ++ segmentsFrom [] (renderSegments segments).toList := by
  match segments with
  | [] => simp [renderSegments, segmentsFrom_nil, literal]
  | .text value :: rest => exact absurd rfl (hhead value)
  | .marker m :: rest =>
    rw [toList_renderSegments_cons, toList_render_marker, segmentsFrom_tokenChars hcut.1,
      segmentsFrom_tokenChars hcut.1]
    rfl

theorem segmentsOf_renderSegments : ∀ {segments : List Segment}, IsCut segments →
    IsLeftmost segments → segmentsOf (renderSegments segments) = segments
  | [], _, _ => segmentsFrom_nil []
  | .marker m :: rest, hcut, hleftmost => by
    have ih := segmentsOf_renderSegments hcut.2 hleftmost
    rw [segmentsOf] at ih ⊢
    rw [toList_renderSegments_cons, toList_render_marker, segmentsFrom_tokenChars hcut.1, ih]
    rfl
  | .text value :: rest, hcut, hleftmost => by
    obtain ⟨hvalue, -, hhead, hcut⟩ := hcut
    have ih := segmentsOf_renderSegments hcut hleftmost.2
    have hnone : ∀ a b, value.toList = a ++ b → b ≠ [] →
        markerAt? (b ++ (renderSegments rest).toList) = none :=
      fun a b hab hb => markerAt?_eq_none_iff.2 (hleftmost.1 a b hab hb)
    have hliteral : literal value.toList.reverse = [.text value] := by
      simp [literal, hvalue]
    rw [segmentsOf] at ih ⊢
    rw [toList_renderSegments_cons, Segment.render, segmentsFrom_append hnone, List.append_nil,
      segmentsFrom_renderSegments _ hcut hhead, ih, hliteral]
    rfl

namespace Template

/-- A template is written as the text it was read from. Its segments are the cut of that text in
which no token begins in a literal, and there is no other such cut. -/
theorem parse_normal (text : String) :
    (parse text).render = text ∧
    IsCut (parse text).segments ∧ IsLeftmost (parse text).segments ∧
    (∀ segments, IsCut segments → IsLeftmost segments → renderSegments segments = text →
      segments = (parse text).segments) ∧
    (parse (parse text).render).segments = (parse text).segments := by
  have hrender : (parse text).render = text := renderSegments_segmentsOf text
  obtain ⟨hcut, hleftmost⟩ := (passed_nil text.toList).isCut
  rw [hrender]
  refine ⟨rfl, hcut, hleftmost, ?_, rfl⟩
  intro segments hother hleftmost htext
  rw [← htext]
  exact (segmentsOf_renderSegments hother hleftmost).symm

/-- The second token shares a character with the first one. -/
def overlapping : List Segment := [.marker ⟨.hash, "A"⟩, .text "B#"]

theorem parse_normal_overlapping :
    IsCut overlapping ∧ IsLeftmost overlapping ∧ renderSegments overlapping = "#A#B#" ∧
      overlapping = (parse "#A#B#").segments := by
  have hbegins : NoneBegins "B#".toList (renderSegments []).toList :=
    noneBegins_of_length (by decide)
  have hcut : IsCut overlapping :=
    ⟨⟨'A', [], rfl, by decide, by simp⟩, by decide, hbegins.markerFree, by simp, trivial⟩
  have hleftmost : IsLeftmost overlapping := ⟨hbegins, trivial⟩
  have hrender : renderSegments overlapping = "#A#B#" := by decide
  exact ⟨hcut, hleftmost, hrender,
    (parse_normal "#A#B#").2.2.2.1 overlapping hcut hleftmost hrender⟩

/-- Where two tokens overlap, a text has two cuts. -/
theorem cut_not_unique :
    ¬ ∀ segments, IsCut segments → renderSegments segments = "#A#B#" →
      segments = (parse "#A#B#").segments := by
  intro h
  have hbegins : NoneBegins "#A".toList [] := noneBegins_of_length (by decide)
  have hcut : IsCut [.text "#A", .marker ⟨.hash, "B"⟩] :=
    ⟨by decide, hbegins.markerFree, by simp, ⟨'B', [], rfl, by decide, by simp⟩, trivial⟩
  have hsame := h _ hcut (by decide)
  revert hsame
  decide +kernel

end Template

end SkillCompiler
