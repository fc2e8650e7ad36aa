import SkillCompiler.Proofs.Log
import SkillCompiler.Proofs.Template.Tokens
import SkillCompiler.Synthesis.Render

/-!
# What the artifacts are made of

The tasks of the events offer texts at anchors, in order. A dependency is taken the first time only.
An artifact is its template with the texts taken at each anchor in the place of that anchor and
without any other marker (`synthesize_texts`), if no such text brings in markers of its own.
-/

namespace SkillCompiler

/-- A text that is meant for an anchor; some are put in once only. -/
structure Offer where
  anchor : Anchor
  text : String
  once : Bool
  deriving DecidableEq

namespace Offer

/-- The offers that are taken, given the ones before them. -/
def taken : (earlier : List Offer) → List Offer → List Offer
  | _, [] => []
  | earlier, o :: later =>
    if o.once && earlier.contains o then taken (earlier ++ [o]) later
    else o :: taken (earlier ++ [o]) later

/-- The texts at an anchor, in order. -/
def textsAt (anchor : Anchor) (offers : List Offer) : List String :=
  (offers.filter fun o => o.anchor = anchor).map Offer.text

/-- The insertion of an offered text. -/
def insertion (o : Offer) : Marker × String := (o.anchor.marker, o.text)

/-- What a task offers. -/
def ofTask? (table : FragmentTable) : Task → Option Offer
  | .place fragment anchor values lists =>
    (Draft.compose table fragment values lists).value.map (⟨anchor, ·, false⟩)
  | .depend fragment anchor values _ =>
    (Draft.compose table fragment values []).value.map (⟨anchor, ·, true⟩)
  | .leaveOut _ => none
  | .fill anchor item => some ⟨anchor, item, false⟩

/-- What records offer, in their order and in the order of the tasks of each. -/
def ofRecords (table : FragmentTable) (records : List Record) : List Offer :=
  records.flatMap fun record =>
    ((Task.ofRecord table record).getD []).filterMap (ofTask? table)

end Offer

/-- Literal text, no marker. -/
def Segment.isText : Segment → Bool
  | text _ => true
  | marker _ => false

namespace Artifacts

/-- What stands in the place of a segment: text stays, the texts for an anchor take its place, and
other markers are gone. -/
def filled (offers : List Offer) : Segment → String
  | .text value => value
  | .marker m =>
    match Anchor.all.find? (·.marker = m) with
    | some anchor => String.join (Offer.textsAt anchor offers)
    | none => ""

def assembled (offers : List Offer) (t : Template) : String :=
  String.join (t.segments.map (filled offers))

/-- The fragments of the templates that are used, and the templates without them. -/
def collected (templates : ArtifactTexts) (dataModel : Bool) (names : SkillNames)
    (registry : Registry) : FragmentTable × List (ArtifactKind × Template) :=
  (collectAll [] ((templates.filter fun (kind, _) => dataModel || !kind.isDataModel).map
    fun (kind, text) => (kind, (prepare names dataModel registry text).value))).value

end Artifacts

/-! ## Carrying out tasks -/

namespace Draft

/-- Takes an offer, unless it is one that is already there. -/
def accept (d : Draft) (o : Offer) : Draft :=
  if o.once && d.listed.contains (o.anchor, o.text) then d
  else ⟨(d.template.insertAfter o.anchor.marker o.text).1,
    if o.once then d.listed ++ [(o.anchor, o.text)] else d.listed⟩

theorem value_perform (table : FragmentTable) (d : Draft) (task : Task) :
    (perform table d task).value =
      match Offer.ofTask? table task with
      | some o => d.accept o
      | none => d := by
  cases task with
  | place fragment anchor values lists =>
    simp only [perform, Logged.value_bind, Offer.ofTask?]
    cases (compose table fragment values lists).value with
    | none => rfl
    | some text => simp [accept, insert, Template.insertNoted]
  | depend fragment anchor values package =>
    simp only [perform, Logged.value_bind, Offer.ofTask?]
    cases (compose table fragment values []).value with
    | none => rfl
    | some text =>
      simp only [Option.map_some, accept, Bool.true_and]
      by_cases h : (anchor, text) ∈ d.listed
      · simp [h]
      · simp [h, insert, Template.insertNoted]
  | leaveOut package => rfl
  | fill anchor item => simp [perform, Offer.ofTask?, accept, insert, Template.insertNoted]

theorem value_foldlM_perform (table : FragmentTable) :
    ∀ (tasks : List Task) (d : Draft),
      (tasks.foldlM (perform table) d).value =
        (tasks.filterMap (Offer.ofTask? table)).foldl accept d
  | [], _ => rfl
  | task :: tasks, d => by
    rw [List.foldlM_cons, Logged.value_bind, value_foldlM_perform table tasks, value_perform,
      List.filterMap_cons]
    cases Offer.ofTask? table task <;> rfl

theorem value_foldlM_render (table : FragmentTable) :
    ∀ (records : List Record) (d : Draft),
      (records.foldlM (render table) d).value =
        (Offer.ofRecords table records).foldl accept d
  | [], _ => rfl
  | record :: records, d => by
    rw [List.foldlM_cons, Logged.value_bind, value_foldlM_render table records, render,
      Logged.value_bind, value_foldlM_perform, Offer.ofRecords, Offer.ofRecords,
      List.flatMap_cons, List.foldl_append]

/-- The dependencies that are listed are those that have been offered. -/
theorem template_foldl_accept :
    ∀ (offers earlier : List Offer) (d : Draft),
      (∀ anchor text, (anchor, text) ∈ d.listed ↔ ⟨anchor, text, true⟩ ∈ earlier) →
        (offers.foldl accept d).template =
          ((Offer.taken earlier offers).map Offer.insertion).foldl
            (fun t (anchor, payload) => (t.insertAfter anchor payload).1) d.template
  | [], _, _, _ => rfl
  | ⟨anchor, text, false⟩ :: offers, earlier, d, h => by
    have ih := template_foldl_accept offers (earlier ++ [⟨anchor, text, false⟩])
      ⟨(d.template.insertAfter anchor.marker text).1, d.listed⟩ (by simpa using h)
    simpa [Offer.taken, accept, Offer.insertion] using ih
  | ⟨anchor, text, true⟩ :: offers, earlier, d, h => by
    by_cases hm : (anchor, text) ∈ d.listed
    · have ih := template_foldl_accept offers (earlier ++ [⟨anchor, text, true⟩]) d (by
        intro a x
        rw [List.mem_append, List.mem_singleton, ← h]
        refine ⟨Or.inl, fun hx => hx.elim id fun he => ?_⟩
        simp only [Offer.mk.injEq, and_true] at he
        rwa [he.1, he.2])
      simpa [Offer.taken, accept, hm, (h anchor text).1 hm] using ih
    · have ih := template_foldl_accept offers (earlier ++ [⟨anchor, text, true⟩])
        ⟨(d.template.insertAfter anchor.marker text).1, d.listed ++ [(anchor, text)]⟩ (by
        intro a x
        rw [List.mem_append, List.mem_append, h]
        simp)
      simpa [Offer.taken, accept, Offer.insertion, hm, mt (h anchor text).2 hm] using ih

/-! ## Closing a template -/

theorem segments_close (t : Template) : (close t).segments = t.segments.filter Segment.isText := by
  have hanchors : clearAnchors t =
      (Anchor.all.map Anchor.marker).foldl (fun t m => (t.clearAnchor m).1) t := by
    rw [clearAnchors, List.foldl_map]
  have hcleared : (clearAnchors t).segments =
      t.segments.filter fun s => (Anchor.all.map Anchor.marker).all (s ≠ .marker ·) := by
    rw [hanchors, Template.segments_foldl_clearAnchor]
  rw [close, Template.segments_foldl_clearAnchor, hcleared, List.filter_filter]
  refine List.filter_congr fun s hs => ?_
  cases s with
  | text value => simp [Segment.isText]
  | marker m =>
    -- A marker that is no anchor is among the markers that are left.
    by_cases ha : m ∈ Anchor.all.map Anchor.marker
    · obtain ⟨anchor, hanchor, he⟩ := List.mem_map.1 ha
      simpa [Segment.isText] using fun _ => ⟨anchor, hanchor, he.symm⟩
    · have hm : m ∈ (clearAnchors t).markers := by
        rw [Template.mem_markers, hcleared, List.mem_filter]
        refine ⟨hs, List.all_eq_true.2 fun x hx => ?_⟩
        simpa using fun he : m = x => ha (he ▸ hx)
      simpa [Segment.isText] using fun hall => absurd hm (hall m · rfl)

theorem renderSegments_filter_isText_flatMap (f : Segment → List Segment) :
    ∀ segments : List Segment,
      renderSegments ((segments.flatMap f).filter Segment.isText) =
        String.join (segments.map fun s => renderSegments ((f s).filter Segment.isText))
  | [] => rfl
  | s :: segments => by
    rw [List.flatMap_cons, List.filter_append, renderSegments_append,
      renderSegments_filter_isText_flatMap f segments, List.map_cons, String.join_cons]

end Draft

/-! ## Texts at anchors -/

namespace Anchor

theorem mem_all (anchor : Anchor) : anchor ∈ all := by cases anchor <;> decide

theorem marker_injective {a b : Anchor} (h : a.marker = b.marker) : a = b := by
  have hall : ∀ a ∈ all, ∀ b ∈ all, a.marker = b.marker → a = b := by decide
  exact hall a (mem_all a) b (mem_all b) h

end Anchor

namespace Offer

theorem taken_subset : ∀ (earlier offers : List Offer), taken earlier offers ⊆ offers
  | _, [] => List.Subset.refl _
  | earlier, o :: later => by
    have ih := taken_subset (earlier ++ [o]) later
    rw [taken]
    split
    · exact List.subset_cons_of_subset o ih
    · exact List.cons_subset_cons o ih

theorem insertions_at (m : Marker) (offers : List Offer) :
    ((offers.map insertion).filter fun i => Segment.marker m = .marker i.1).map Prod.snd =
      match Anchor.all.find? (·.marker = m) with
      | some anchor => textsAt anchor offers
      | none => [] := by
  rw [List.filter_map, List.map_map]
  cases hf : Anchor.all.find? (·.marker = m) with
  | none =>
    have hnone : ∀ o ∈ offers, ¬ m = o.anchor.marker := fun o _ he =>
      List.find?_eq_none.1 hf o.anchor (Anchor.mem_all _) (by simpa using he.symm)
    rw [List.filter_eq_nil_iff.2 fun o ho => by simp [insertion, hnone o ho]]
    rfl
  | some anchor =>
    have hm : anchor.marker = m := by simpa using List.find?_some hf
    have hsame : ∀ o ∈ offers, (m = o.anchor.marker ↔ o.anchor = anchor) := fun o _ =>
      ⟨fun he => Anchor.marker_injective (he.symm.trans hm.symm), fun he => he ▸ hm.symm⟩
    simp only [textsAt]
    refine congrArg (List.map text) (List.filter_congr fun o ho => ?_)
    simp [insertion, hsame o ho]

end Offer

/-! ## Templates before events are rendered -/

namespace Artifacts

open Template

section

variable {P : ArtifactKind → Template → Prop}
  (hremove : ∀ kind t marks, P kind t → P kind (ofPieces (removeMarked marks t.pieces)))

include hremove

theorem prepare_induction {kind : ArtifactKind} {names : SkillNames} (dataModel : Bool)
    (registry : Registry) {text : String}
    (h : P kind (parse ((Placeholders.forSkill names).apply text))) :
    P kind (prepare names dataModel registry text).value := by
  have hstep : ∀ (l : List (Region × Bool)) (t : Template), P kind t →
      P kind (l.foldl (fun t r => t.toggle r.1 r.2) t) := by
    intro l
    induction l with
    | nil => exact fun _ h => h
    | cons r l ih =>
      intro t h
      obtain ⟨marks, heq⟩ := t.exists_toggle_eq r.1 r.2
      refine ih (t.toggle r.1 r.2) ?_
      rw [heq]
      exact hremove kind t marks h
  rw [prepare, Logged.value_foldlM]
  exact hstep _ _ h

theorem collect_induction (table : FragmentTable) {kind : ArtifactKind} {t : Template}
    (h : P kind t) : P kind (table.collect t).value.2 := by
  have hstep : ∀ (l : List Fragment) (acc : FragmentTable × Template), P kind acc.2 →
      P kind (l.foldl (fun acc fragment => FragmentTable.cut fragment acc.1 acc.2) acc).2 := by
    intro l
    induction l with
    | nil => exact fun _ h => h
    | cons fragment l ih =>
      intro acc h
      obtain ⟨marks, heq⟩ := acc.2.exists_delete_eq fragment.region
      refine ih (FragmentTable.cut fragment acc.1 acc.2) ?_
      change P kind (acc.2.delete fragment.region)
      rw [heq]
      exact hremove kind acc.2 marks h
  rw [FragmentTable.collect, Logged.value_foldlM]
  exact hstep _ _ h

theorem collectAll_induction :
    ∀ (templates : List (ArtifactKind × Template)) (table : FragmentTable),
      (∀ kt ∈ templates, P kt.1 kt.2) →
        ∀ kt ∈ (collectAll table templates).value.2, P kt.1 kt.2
  | [], _, _ => by simp [collectAll]
  | (kind, t) :: rest, table, h => by
    have hrest := collectAll_induction rest (table.collect t).value.1 fun kt hkt =>
      h kt (List.mem_cons_of_mem _ hkt)
    intro kt hkt
    rcases List.mem_cons.1 hkt with rfl | hkt
    · exact collect_induction hremove table (h _ (List.mem_cons_self ..))
    · exact hrest kt hkt

/-- Until events are rendered, templates only lose pieces. -/
theorem collected_induction {templates : ArtifactTexts} {dataModel : Bool} {names : SkillNames}
    {registry : Registry}
    (hparse : ∀ e ∈ templates, P e.1 (parse ((Placeholders.forSkill names).apply e.2)))
    {kt : ArtifactKind × Template} (h : kt ∈ (collected templates dataModel names registry).2) :
    P kt.1 kt.2 := by
  refine collectAll_induction hremove _ _ (fun kt hkt => ?_) kt h
  obtain ⟨⟨kind, text⟩, hmem, rfl⟩ := List.mem_map.1 hkt
  change P kind (prepare names dataModel registry text).value
  exact prepare_induction hremove dataModel registry
    (hparse (kind, text) (List.mem_filter.1 hmem).1)

end

theorem isFlat_collected {templates : ArtifactTexts} {dataModel : Bool} {names : SkillNames}
    {registry : Registry} {kt : ArtifactKind × Template}
    (h : kt ∈ (collected templates dataModel names registry).2) : kt.2.IsFlat :=
  collected_induction (P := fun _ t => t.IsFlat) (fun _ _ marks h => h.removeMarked marks)
    (fun _ _ => isFlat_parse _) h

/-! ## Rendering one artifact -/

theorem segments_insertions {t : Template} (h : t.IsFlat) {offers : List Offer}
    (hfree : ∀ o ∈ offers, MarkerFree o.text) :
    ((offers.map Offer.insertion).foldl
        (fun t (anchor, payload) => (t.insertAfter anchor payload).1) t).segments =
      t.segments.flatMap fun s => s ::
        ((offers.map Offer.insertion).filter fun i => s = .marker i.1).flatMap
          fun i => segmentsOf i.2 := by
  rw [segments_eq_preorder (pieces_foldl_insertAfter _ h.pieces_eq), preorder_insertAll_leaves]
  congr 1
  funext s
  rw [preorder_contributed]
  intro i hi
  obtain ⟨o, ho, rfl⟩ := List.mem_map.1 hi
  exact hfree o ho

theorem renderSegments_flatMap_segmentsOf : ∀ insertions : List (Marker × String),
    renderSegments (insertions.flatMap fun i => segmentsOf i.2) =
      String.join (insertions.map Prod.snd)
  | [] => rfl
  | i :: insertions => by
    rw [List.flatMap_cons, renderSegments_append, renderSegments_segmentsOf,
      renderSegments_flatMap_segmentsOf insertions, List.map_cons, String.join_cons]

/-- What a segment comes to when the texts offered at it are there and the markers are gone. -/
theorem renderSegments_filled {offers : List Offer} (hfree : ∀ o ∈ offers, MarkerFree o.text)
    (s : Segment) :
    renderSegments ((s :: ((offers.map Offer.insertion).filter fun i => s = .marker i.1).flatMap
        fun i => segmentsOf i.2).filter Segment.isText) =
      filled offers s := by
  cases s with
  | text value =>
    have hnone : (offers.map Offer.insertion).filter
        (fun i => Segment.text value = .marker i.1) = [] := List.filter_eq_nil_iff.2 (by simp)
    rw [hnone, List.flatMap_nil]
    exact (renderSegments_cons (.text value) []).trans String.append_empty
  | marker m =>
    have htexts : ∀ x ∈ ((offers.map Offer.insertion).filter fun i =>
        Segment.marker m = .marker i.1).flatMap fun i => segmentsOf i.2, x.isText := by
      intro x hx
      obtain ⟨i, hi, hx⟩ := List.mem_flatMap.1 hx
      obtain ⟨o, ho, rfl⟩ := List.mem_map.1 (List.mem_filter.1 hi).1
      obtain ⟨value, rfl⟩ := text_of_mem_segmentsOf (hfree o ho) hx
      rfl
    rw [List.filter_cons_of_neg (by simp [Segment.isText]), List.filter_eq_self.2 htexts,
      renderSegments_flatMap_segmentsOf, Offer.insertions_at, filled]
    cases Anchor.all.find? (·.marker = m) <;> rfl

/-- An artifact is what is left of its template, with the offers that were taken put in, when all
markers are gone. -/
theorem value_renderOne_eq (table : FragmentTable) (records : List Record) (kind : ArtifactKind)
    (t : Template) :
    (renderOne table records kind t).value =
      renderSegments ((((Offer.taken [] (Offer.ofRecords table records)).map Offer.insertion).foldl
        (fun t (anchor, payload) => (t.insertAfter anchor payload).1) t).segments.filter
          Segment.isText) := by
  simp only [renderOne, Logged.value_bind, Logged.value_pure]
  rw [Draft.value_foldlM_render, Draft.template_foldl_accept _ [] { template := t } (by simp),
    render, Draft.segments_close]

theorem value_renderOne (table : FragmentTable) (records : List Record) (kind : ArtifactKind)
    {t : Template} (h : t.IsFlat)
    (hfree : ∀ o ∈ Offer.ofRecords table records, MarkerFree o.text) :
    (renderOne table records kind t).value =
      assembled (Offer.taken [] (Offer.ofRecords table records)) t := by
  have htaken : ∀ o ∈ Offer.taken [] (Offer.ofRecords table records), MarkerFree o.text :=
    fun o ho => hfree o (Offer.taken_subset _ _ ho)
  rw [value_renderOne_eq, segments_insertions h htaken,
    Draft.renderSegments_filter_isText_flatMap, assembled]
  exact congrArg String.join (List.map_congr_left fun s _ => renderSegments_filled htaken s)

theorem value_synthesize (templates : ArtifactTexts) (dataModel : Bool) (names : SkillNames)
    (registry : Registry) :
    (synthesize templates dataModel names registry).value.texts =
      (collected templates dataModel names registry).2.map fun (kind, t) =>
        (kind, (renderOne (collected templates dataModel names registry).1 registry.records kind
          t).value) := by
  simp only [synthesize, Logged.value_bind, Logged.value_pure, Logged.value_mapM]
  rfl

/-- An artifact is its template with the texts for each anchor in its place, in the order in which
the records offer them. -/
theorem synthesize_texts (templates : ArtifactTexts) (dataModel : Bool) (names : SkillNames)
    (registry : Registry)
    (hfree : ∀ o ∈ Offer.ofRecords (collected templates dataModel names registry).1
      registry.records, MarkerFree o.text) :
    (synthesize templates dataModel names registry).value.texts =
      (collected templates dataModel names registry).2.map fun (kind, t) =>
        (kind, assembled (Offer.taken [] (Offer.ofRecords
          (collected templates dataModel names registry).1 registry.records)) t) := by
  rw [value_synthesize]
  refine List.map_congr_left fun (kind, t) ht => ?_
  exact congrArg (kind, ·) (value_renderOne _ _ kind (isFlat_collected ht) hfree)

/-- The call of a service of a package. -/
def callOf (function package : String) : String × Option Record :=
  ("A." ++ function ++ ".Call",
    some ⟨.send ("A." ++ function ++ ".Call") [], some ⟨"A", function, some .call⟩,
      { kind := some .serviceClient, interfaceName := package }⟩)

def callRegistry : Registry := ⟨[callOf "f" "p", callOf "g" "q", callOf "h" "p"]⟩

def callTemplates : ArtifactTexts :=
  [(.cmakeLists, "#PACKAGE#$interfaceName$#END_PACKAGE##PACKAGE_LIST#")]

/-- Every package is listed where it is first needed. -/
theorem synthesize_texts_calls :
    (∀ o ∈ Offer.ofRecords (collected callTemplates false ⟨"", "", ""⟩ callRegistry).1
      callRegistry.records, MarkerFree o.text) ∧
    (synthesize callTemplates false ⟨"", "", ""⟩ callRegistry).value.texts =
      [(.cmakeLists, "pq")] := by
  have hcollected : collected callTemplates false ⟨"", "", ""⟩ callRegistry =
      ([(.buildPackage, "$interfaceName$")],
        [(.cmakeLists, ⟨[.marker ⟨.hash, "PACKAGE_LIST"⟩], [0], rfl⟩)]) := by
    decide +kernel
  have hoffers : Offer.ofRecords [(.buildPackage, "$interfaceName$")] callRegistry.records =
      ["p", "q", "p"].map (⟨.buildPackageList, ·, true⟩) := by
    decide +kernel
  have hfree : ∀ o ∈ Offer.ofRecords (collected callTemplates false ⟨"", "", ""⟩ callRegistry).1
      callRegistry.records, MarkerFree o.text := by
    rw [hcollected, hoffers]
    intro o ho
    obtain ⟨text, htext, rfl⟩ := List.mem_map.1 ho
    have hchars : ∀ text ∈ ["p", "q", "p"], text.toList.all (· ∉ ['/', '#', '<']) := by decide
    exact markerFree_of_all (hchars text htext)
  refine ⟨hfree, (synthesize_texts _ _ _ _ hfree).trans ?_⟩
  rw [hcollected, hoffers]
  decide +kernel

end Artifacts

end SkillCompiler
