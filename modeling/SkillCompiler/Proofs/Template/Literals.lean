import SkillCompiler.Proofs.Template.Tokens

/-!
# Literal pieces

Every token is read off where it stands (`markerAt?_tokenChars`), so text that has been passed over
holds none (`Passed.markerFree`). Pieces that are put one after the other can make a new token, but
only across the end of one of them, which is then the beginning of that token
(`exists_isBegunBy`). The edits of a template make no pieces of their own: removing leaves some of
those that were there, and inserting adds those of the inserted text.
-/

namespace SkillCompiler

/-! ## Tokens in a text -/

theorem span_closing (style : MarkerStyle) (rest : List Char) :
    (style.closing ++ rest).takeWhile Marker.isTail = [] ∧
      (style.closing ++ rest).dropWhile Marker.isTail = style.closing ++ rest := by
  cases style <;>
    exact ⟨List.takeWhile_cons_of_neg (by decide), List.dropWhile_cons_of_neg (by decide)⟩

theorem styledAt?_tokenChars {m : Marker} (h : m.IsNamed) (rest : List Char) :
    styledAt? m.style (m.tokenChars ++ rest) = some (m, rest) := by
  obtain ⟨c, tail, hname, hc, htail⟩ := h
  obtain ⟨htake, hdrop⟩ := span_closing m.style rest
  have hopening : Text.dropStart? m.style.opening (m.tokenChars ++ rest) =
      some (c :: (tail ++ (m.style.closing ++ rest))) := by
    rw [Text.dropStart?_eq_some, Marker.tokenChars, hname]
    simp only [List.append_assoc, List.cons_append]
  have hrest : Text.dropStart? m.style.closing (m.style.closing ++ rest) = some rest :=
    Text.dropStart?_eq_some.2 rfl
  unfold styledAt?
  rw [hopening]
  dsimp only
  rw [if_pos hc, List.dropWhile_append_of_pos htail, hdrop, hrest,
    List.takeWhile_append_of_pos htail, htake, List.append_nil, ← hname, String.ofList_toList]
  rfl

theorem styledAt?_tokenChars_of_ne (m : Marker) (rest : List Char) {style : MarkerStyle}
    (h : style ≠ m.style) : styledAt? style (m.tokenChars ++ rest) = none := by
  obtain ⟨mstyle, name⟩ := m
  -- Tokens of different styles differ in their first character.
  cases style <;> cases mstyle <;>
    first
    | exact absurd rfl h
    | simp [styledAt?, Marker.tokenChars, MarkerStyle.opening, Text.dropStart?]

theorem markerAt?_tokenChars {m : Marker} (h : m.IsNamed) (rest : List Char) :
    markerAt? (m.tokenChars ++ rest) = some (m, rest) := by
  have hsame := styledAt?_tokenChars h rest
  have hother : ∀ style, style ≠ m.style → styledAt? style (m.tokenChars ++ rest) = none :=
    fun _ => styledAt?_tokenChars_of_ne m rest
  unfold markerAt? MarkerStyle.all
  cases hs : m.style <;> rw [hs] at hsame hother <;> simp [hsame, hother]

/-- No marker stands at any of the characters already passed, given backwards. -/
def Passed (before text : List Char) : Prop :=
  ∀ a b, before.reverse = a ++ b → b ≠ [] → markerAt? (b ++ text) = none

theorem passed_nil (text : List Char) : Passed [] text := by
  intro a b hab hb
  exact absurd (List.append_eq_nil_iff.1 hab.symm).2 hb

theorem Passed.cons {before rest : List Char} {c : Char} (h : Passed before (c :: rest))
    (hc : markerAt? (c :: rest) = none) : Passed (c :: before) rest := by
  intro a b hab hb
  obtain ⟨b', d, rfl⟩ := (List.eq_nil_or_concat b).resolve_left hb
  rw [List.reverse_cons, List.concat_eq_append, ← List.append_assoc] at hab
  obtain ⟨hbefore, hlast⟩ := List.append_inj' hab rfl
  cases hlast
  rw [List.concat_eq_append, List.append_assoc, List.singleton_append]
  by_cases hb' : b' = []
  · rw [hb', List.nil_append]
    exact hc
  · exact h a b' hbefore hb'

theorem Passed.markerFree {before text : List Char} (h : Passed before text) :
    MarkerFree (String.ofList before.reverse) := by
  rintro m hm ⟨a, b, hab⟩
  rw [String.toList_ofList, List.append_assoc] at hab
  have hne : m.tokenChars ++ b ≠ [] := by
    cases hs : m.style <;> simp [Marker.tokenChars, hs, MarkerStyle.opening]
  have hsome := markerAt?_tokenChars hm (b ++ text)
  rw [← List.append_assoc, h a _ hab.symm hne] at hsome
  cases hsome

/-! ## Pieces put together -/

/-- The text ends with the beginning of the token, and not with all of it. -/
def Marker.IsBegunBy (m : Marker) (text : String) : Prop :=
  ∃ u v, m.tokenChars = u ++ v ∧ u ≠ [] ∧ v ≠ [] ∧ u <:+ text.toList

theorem exists_isBegunBy {m : Marker} (hm : m.IsNamed) :
    ∀ {literals : List String}, (∀ l ∈ literals, MarkerFree l) →
      m.tokenChars <:+: (String.join literals).toList → ∃ l ∈ literals, m.IsBegunBy l
  | [], _, htoken => by
    have hnil := List.eq_nil_of_infix_nil htoken
    cases hs : m.style <;> simp [Marker.tokenChars, hs, MarkerStyle.opening] at hnil
  | l :: literals, hfree, htoken => by
    have hrest : m.tokenChars <:+: (String.join literals).toList →
        ∃ l' ∈ l :: literals, m.IsBegunBy l' := fun h => by
      obtain ⟨l', hl', hbegun⟩ :=
        exists_isBegunBy hm (fun x hx => hfree x (List.mem_cons_of_mem l hx)) h
      exact ⟨l', List.mem_cons_of_mem l hl', hbegun⟩
    have hl : ¬ m.tokenChars <:+: l.toList := hfree l List.mem_cons_self m hm
    rw [String.join_cons, String.toList_append, List.infix_append_iff] at htoken
    rcases htoken with htoken | htoken | ⟨u, v, huv, hu, hv⟩
    · exact absurd htoken hl
    · exact hrest htoken
    · by_cases hnu : u = []
      · rw [hnu, List.nil_append] at huv
        exact hrest (huv ▸ hv.isInfix)
      · by_cases hnv : v = []
        · rw [hnv, List.append_nil] at huv
          exact absurd (huv ▸ hu.isInfix) hl
        · exact ⟨l, List.mem_cons_self, u, v, huv, hnu, hnv, hu⟩

/-- The literal texts among some segments. -/
def literals (segments : List Segment) : List String :=
  segments.filterMap fun
    | .text value => some value
    | .marker _ => none

theorem mem_literals {segments : List Segment} {value : String} :
    value ∈ literals segments ↔ .text value ∈ segments := by
  rw [literals, List.mem_filterMap]
  constructor
  · rintro ⟨s, hs, he⟩
    cases s with
    | text v =>
      cases he
      exact hs
    | marker m => cases he
  · exact fun h => ⟨_, h, rfl⟩

namespace Template

/-! ## Edits -/

theorem segments_removeMarked_subset :
    ∀ (marks : List Bool) (pieces : List Piece),
      (removeMarked marks pieces).map Piece.segment ⊆ pieces.map Piece.segment
  | [], pieces => List.Subset.refl _
  | _ :: _, [] => List.Subset.refl _
  | mark :: marks, p :: pieces => by
    have ih := segments_removeMarked_subset marks pieces
    rw [removeMarked]
    split
    · exact List.subset_cons_of_subset _ ih
    · exact List.cons_subset_cons _ ih

theorem segments_insertAt_subset (payload : List Segment) (i : Nat) (t : Template) :
    (insertAt payload i t).segments ⊆ t.segments ++ payload := by
  intro s hs
  simp only [insertAt, List.mem_append] at hs
  rw [List.mem_append]
  rcases hs with (hs | hs) | hs
  · exact .inl (List.take_subset _ _ hs)
  · exact .inr hs
  · exact .inl (List.drop_subset _ _ hs)

theorem segments_insertAfter_subset (t : Template) (anchor : Marker) (payload : String) :
    (t.insertAfter anchor payload).1.segments ⊆ t.segments ++ segmentsOf payload := by
  have hplaces : ∀ places : List Nat,
      (places.foldr (insertAt (segmentsOf payload)) t).segments ⊆
        t.segments ++ segmentsOf payload := by
    intro places
    induction places with
    | nil => exact List.subset_append_left _ _
    | cons i places ih =>
      exact List.Subset.trans (segments_insertAt_subset _ i _)
        (List.append_subset.2 ⟨ih, List.subset_append_right _ _⟩)
  exact hplaces (t.places (· = anchor))

theorem segments_foldl_insertAfter_subset :
    ∀ (insertions : List (Marker × String)) (t : Template),
      (insertions.foldl (fun t (anchor, payload) => (t.insertAfter anchor payload).1) t).segments ⊆
        t.segments ++ insertions.flatMap fun i => segmentsOf i.2
  | [], t => List.subset_append_left _ _
  | (anchor, payload) :: insertions, t => by
    have ih := segments_foldl_insertAfter_subset insertions (t.insertAfter anchor payload).1
    rw [List.foldl_cons, List.flatMap_cons, ← List.append_assoc]
    refine List.Subset.trans ih (List.append_subset.2 ⟨?_, List.subset_append_right _ _⟩)
    exact List.Subset.trans (segments_insertAfter_subset t anchor payload)
      (List.subset_append_left _ _)

end Template

end SkillCompiler
