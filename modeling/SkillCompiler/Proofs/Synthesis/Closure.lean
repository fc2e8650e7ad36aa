import SkillCompiler.Proofs.Synthesis.Assembly
import SkillCompiler.Proofs.Template.NormalForm

/-!
# Tokens left in artifacts

When an artifact is closed, every marker of its template and of the texts put into it is gone. What
is left are literal pieces, none of which holds a token. The artifact is those pieces one after the
other, so a token that stands in it has been joined from several: one of them ends with its beginning
(`artifact_token_joined`). A template can bring that about (`synthesize_joins_token`).
-/

namespace SkillCompiler

namespace Artifacts

open Template

/-- The texts that artifacts of a kind are cut from: the templates of that kind with the names of
the skill, and what the records offer. -/
def sources (templates : ArtifactTexts) (dataModel : Bool) (names : SkillNames)
    (registry : Registry) (kind : ArtifactKind) : List String :=
  ((templates.filter fun e => e.1 = kind).map fun e => (Placeholders.forSkill names).apply e.2) ++
    (Offer.ofRecords (collected templates dataModel names registry).1 registry.records).map
      Offer.text

variable {templates : ArtifactTexts} {dataModel : Bool} {names : SkillNames} {registry : Registry}

theorem exists_source_of_collected {kt : ArtifactKind × Template}
    (h : kt ∈ (collected templates dataModel names registry).2) :
    ∀ s ∈ kt.2.segments, ∃ source ∈ sources templates dataModel names registry kt.1,
      s ∈ segmentsOf source := by
  refine collected_induction (P := fun kind t => ∀ s ∈ t.segments,
    ∃ source ∈ sources templates dataModel names registry kind, s ∈ segmentsOf source)
    (fun kind t marks ht s hs => ?_) (fun e he s hs => ?_) h
  · have hsubset := segments_removeMarked_subset marks t.pieces
    rw [segment_pieces] at hsubset
    exact ht s (hsubset hs)
  · refine ⟨_, List.mem_append_left _ (List.mem_map_of_mem (List.mem_filter.2 ⟨he, ?_⟩)), hs⟩
    exact decide_eq_true rfl

theorem exists_source_of_inserted {kt : ArtifactKind × Template}
    (h : kt ∈ (collected templates dataModel names registry).2) {offers : List Offer}
    (hoffers : offers ⊆ Offer.ofRecords (collected templates dataModel names registry).1
      registry.records) :
    ∀ s ∈ ((offers.map Offer.insertion).foldl
        (fun t (anchor, payload) => (t.insertAfter anchor payload).1) kt.2).segments,
      ∃ source ∈ sources templates dataModel names registry kt.1, s ∈ segmentsOf source := by
  intro s hs
  rcases List.mem_append.1 (segments_foldl_insertAfter_subset _ _ hs) with hs | hs
  · exact exists_source_of_collected h s hs
  · obtain ⟨i, hi, hs⟩ := List.mem_flatMap.1 hs
    obtain ⟨o, ho, rfl⟩ := List.mem_map.1 hi
    exact ⟨o.text, List.mem_append_right _ (List.mem_map_of_mem (hoffers ho)), hs⟩

theorem renderSegments_filter_isText :
    ∀ segments : List Segment,
      renderSegments (segments.filter Segment.isText) = String.join (literals segments)
  | [] => rfl
  | .text value :: segments => by
    rw [List.filter_cons_of_pos rfl, renderSegments_cons, renderSegments_filter_isText segments]
    exact String.join_cons.symm
  | .marker m :: segments => renderSegments_filter_isText segments

/-- An artifact is made of literal pieces of its sources, which hold no token; a token in it is
begun by one of the pieces and ended by those after it. -/
theorem artifact_token_joined {kind : ArtifactKind} {text : String}
    (h : (kind, text) ∈ (synthesize templates dataModel names registry).value.texts) :
    ∃ pieces : List String, text = String.join pieces ∧
      (∀ piece ∈ pieces, MarkerFree piece ∧
        ∃ source ∈ sources templates dataModel names registry kind,
          .text piece ∈ segmentsOf source) ∧
      ∀ m : Marker, m.IsNamed → m.tokenChars <:+: text.toList →
        ∃ piece ∈ pieces, m.IsBegunBy piece := by
  rw [value_synthesize] at h
  obtain ⟨⟨kind', t⟩, ht, he⟩ := List.mem_map.1 h
  obtain ⟨rfl, rfl⟩ := Prod.mk.inj he
  rw [value_renderOne_eq, renderSegments_filter_isText]
  generalize hsegments : (((Offer.taken [] (Offer.ofRecords _ registry.records)).map
    Offer.insertion).foldl _ t).segments = segments
  have hsource : ∀ piece ∈ literals segments,
      ∃ source ∈ sources templates dataModel names registry kind',
        .text piece ∈ segmentsOf source := by
    intro piece hpiece
    rw [mem_literals, ← hsegments] at hpiece
    exact exists_source_of_inserted ht (Offer.taken_subset _ _) _ hpiece
  have hfree : ∀ piece ∈ literals segments, MarkerFree piece := by
    intro piece hpiece
    obtain ⟨source, -, hmem⟩ := hsource piece hpiece
    exact markerFree_of_mem_segmentsOf hmem
  exact ⟨literals segments, rfl, fun piece hpiece => ⟨hfree piece hpiece, hsource piece hpiece⟩,
    fun m hm htoken => exists_isBegunBy hm hfree htoken⟩

/-- A template in which a marker stands between the parts of another token. -/
def splitTemplates : ArtifactTexts := [(.main, "##A#B#")]

def splitNames : SkillNames := ⟨"ASkillCondition", "A", "Condition"⟩

theorem texts_splitTemplates :
    (synthesize splitTemplates false splitNames .empty).value.texts = [(.main, "#B#")] := by
  decide +kernel

theorem isNamed_splitMarker : Marker.IsNamed ⟨.hash, "B"⟩ := ⟨'B', [], rfl, rfl, nofun⟩

theorem artifact_token_joined_split :
    (.main, "#B#") ∈ (synthesize splitTemplates false splitNames .empty).value.texts ∧
    ∃ pieces : List String, "#B#" = String.join pieces ∧ (∀ piece ∈ pieces, MarkerFree piece) ∧
      ∃ piece ∈ pieces, Marker.IsBegunBy ⟨.hash, "B"⟩ piece := by
  have hmem : (.main, "#B#") ∈ (synthesize splitTemplates false splitNames .empty).value.texts := by
    rw [texts_splitTemplates]
    exact List.mem_cons_self
  obtain ⟨pieces, hjoin, hpieces, htokens⟩ := artifact_token_joined hmem
  refine ⟨hmem, pieces, hjoin, fun piece hpiece => (hpieces piece hpiece).1, ?_⟩
  exact htokens _ isNamed_splitMarker List.infix_rfl

/-- A marker that is taken out can leave a token behind. -/
theorem synthesize_joins_token :
    SkillNames.ofRoot "ASkillCondition" = .ok splitNames ∧
    (synthesize splitTemplates false splitNames .empty).value.texts = [(.main, "#B#")] ∧
    ¬ MarkerFree "#B#" :=
  ⟨rfl, texts_splitTemplates,
    fun hfree => hfree ⟨.hash, "B"⟩ isNamed_splitMarker List.infix_rfl⟩

end Artifacts

end SkillCompiler
