import Mathlib.Data.List.Perm.Basic
import SkillCompiler.Proofs.Synthesis.Assembly

/-!
# The order of the templates

All templates share one table of fragments, which keeps the first text that it is given. Where no
fragment stands in two templates, the table has the same texts whatever comes first, a template
takes nothing else from the others, and so every artifact is the same (`synthesize_perm`).
-/

namespace SkillCompiler

/-! ## What a template has for the table -/

theorem Fragment.mem_all (fragment : Fragment) : fragment ∈ all := by cases fragment <;> decide

theorem Fragment.nodup_all : all.Nodup := by decide

namespace Template

def cutAll (fragments : List Fragment) (t : Template) : Template :=
  fragments.foldl (fun t fragment => t.delete fragment.region) t

/-- The text of a fragment in a template: its region, when the fragments that come before it in the
order of cutting are out. -/
def savedText? (t : Template) (fragment : Fragment) : Option String :=
  (cutAll (Fragment.all.takeWhile (· ≠ fragment)) t).extract fragment.region

end Template

namespace FragmentTable

open Template

theorem get?_save (table : FragmentTable) (fragment : Fragment) (text : String) (g : Fragment) :
    (table.save fragment text).get? g =
      (table.get? g).or (if fragment = g then some text else none) := by
  unfold save
  split
  · rename_i h
    by_cases hg : fragment = g
    · obtain ⟨old, hold⟩ := Option.isSome_iff_exists.1 h
      rw [← hg, hold, Option.some_or]
    · rw [if_neg hg, Option.or_none]
  · by_cases hg : fragment = g <;> cases hf : table.find? fun entry => entry.1 = g <;>
      simp [get?, List.find?_append, hf, hg]

theorem get?_cut (fragment : Fragment) (table : FragmentTable) (t : Template) (g : Fragment) :
    (cut fragment table t).1.get? g =
      (table.get? g).or (if fragment = g then t.extract fragment.region else none) := by
  unfold cut
  cases t.extract fragment.region with
  | none => simp
  | some text => exact get?_save table fragment text g

/-- Cutting some fragments out, one after another: the template does not depend on the table, and
the table gets what it does not have. -/
theorem foldl_cut : ∀ {fragments : List Fragment}, fragments.Nodup →
    ∀ (table : FragmentTable) (t : Template),
      (fragments.foldl (fun acc fragment => cut fragment acc.1 acc.2) (table, t)).2 =
        cutAll fragments t ∧
      ∀ g, (fragments.foldl (fun acc fragment => cut fragment acc.1 acc.2) (table, t)).1.get? g =
        (table.get? g).or (if g ∈ fragments then
          (cutAll (fragments.takeWhile (· ≠ g)) t).extract g.region else none)
  | [], _, table, t => by simp [cutAll]
  | fragment :: fragments, h, table, t => by
    obtain ⟨hnew, h⟩ := List.nodup_cons.1 h
    obtain ⟨htemplate, htable⟩ := foldl_cut h (cut fragment table t).1 (t.delete fragment.region)
    refine ⟨htemplate, fun g => (htable g).trans ?_⟩
    rw [get?_cut, Option.or_assoc]
    by_cases hg : fragment = g
    · subst hg
      simp [hnew, cutAll]
    · have hne : g ≠ fragment := fun he => hg he.symm
      simp [hg, hne, cutAll]

theorem collect_eq (table : FragmentTable) (t : Template) :
    (table.collect t).value.2 = cutAll Fragment.all t ∧
      ∀ g, (table.collect t).value.1.get? g = (table.get? g).or (t.savedText? g) := by
  obtain ⟨htemplate, htable⟩ := foldl_cut Fragment.nodup_all table t
  rw [collect, Logged.value_foldlM]
  refine ⟨htemplate, fun g => (htable g).trans ?_⟩
  rw [if_pos (Fragment.mem_all g), savedText?]

end FragmentTable

/-! ## Tables with the same texts -/

section

variable {table table' : FragmentTable} (h : table.get? = table'.get?)

include h

theorem Draft.compose_congr (fragment : Fragment) (values : Placeholders) (lists : ItemLists) :
    compose table fragment values lists = compose table' fragment values lists := by
  unfold compose
  rw [h]

namespace Task

theorem items_congr (fragment : Fragment) (values : Placeholders) (names : List String)
    (substitute : String → String → String) :
    items table fragment values names substitute =
      items table' fragment values names substitute := by
  unfold items
  rw [h]

theorem ofRecord_congr (record : Record) : ofRecord table record = ofRecord table' record := by
  unfold ofRecord
  congr 2
  funext family
  unfold ofFamily serviceCall sendGoal topicSubscription feedback
  simp only [items_congr h]

end Task

namespace Offer

theorem ofTask?_congr (task : Task) : ofTask? table task = ofTask? table' task := by
  cases task with
  | place fragment anchor values lists => rw [ofTask?, ofTask?, Draft.compose_congr h]
  | depend fragment anchor values package => rw [ofTask?, ofTask?, Draft.compose_congr h]
  | leaveOut package => rfl
  | fill anchor item => rfl

theorem ofRecords_congr (records : List Record) :
    ofRecords table records = ofRecords table' records := by
  unfold ofRecords
  simp only [Task.ofRecord_congr h, funext (ofTask?_congr h)]

end Offer

theorem Artifacts.value_renderOne_congr (records : List Record) (kind : ArtifactKind)
    (t : Template) :
    (renderOne table records kind t).value = (renderOne table' records kind t).value := by
  rw [value_renderOne_eq, value_renderOne_eq, Offer.ofRecords_congr h]

end

/-! ## Other orders -/

/-- Where at most one element has an answer, the order does not matter to what is found first. -/
theorem findSome?_eq_of_perm {α β : Type} {f : α → Option β} {l l' : List α} (h : l.Perm l')
    (hone : l.Pairwise fun a b => f a = none ∨ f b = none) : l.findSome? f = l'.findSome? f := by
  induction h with
  | nil => rfl
  | cons a _ ih => rw [List.findSome?_cons, List.findSome?_cons, ih hone.of_cons]
  | swap a b l =>
    have hab := (List.pairwise_cons.1 hone).1 a List.mem_cons_self
    rcases hab with hb | ha
    · simp only [List.findSome?_cons, hb]
    · simp only [List.findSome?_cons, ha]
  | trans h _ ih ih' => exact (ih hone).trans (ih' (h.pairwise hone fun hab => hab.symm))

namespace Artifacts

open Template

/-- The templates that are used, before anything is cut out of them. -/
def prepared (templates : ArtifactTexts) (dataModel : Bool) (names : SkillNames)
    (registry : Registry) : List (ArtifactKind × Template) :=
  (templates.filter fun (kind, _) => dataModel || !kind.isDataModel).map
    fun (kind, text) => (kind, (prepare names dataModel registry text).value)

/-- No fragment stands in two templates. -/
def SavedOnce (templates : List (ArtifactKind × Template)) : Prop :=
  templates.Pairwise fun s t => ∀ fragment,
    s.2.savedText? fragment = none ∨ t.2.savedText? fragment = none

theorem collectAll_eq : ∀ (templates : List (ArtifactKind × Template)) (table : FragmentTable),
    (collectAll table templates).value.2 =
      templates.map (fun (kind, t) => (kind, cutAll Fragment.all t)) ∧
    ∀ g, (collectAll table templates).value.1.get? g =
      (table.get? g).or (templates.findSome? fun kt => kt.2.savedText? g)
  | [], table => by simp [collectAll]
  | (kind, t) :: templates, table => by
    obtain ⟨htemplate, htable⟩ := table.collect_eq t
    obtain ⟨htemplates, htables⟩ := collectAll_eq templates (table.collect t).value.1
    simp only [collectAll, Logged.value_bind, Logged.value_pure]
    refine ⟨by rw [htemplate, htemplates, List.map_cons], fun g => (htables g).trans ?_⟩
    rw [htable, Option.or_assoc, List.findSome?_cons]
    cases t.savedText? g <;> rfl

variable {templates templates' : ArtifactTexts} (dataModel : Bool) (names : SkillNames)
  (registry : Registry)

theorem prepared_perm (h : templates.Perm templates') :
    (prepared templates dataModel names registry).Perm
      (prepared templates' dataModel names registry) :=
  (h.filter _).map _

/-- The table has the same texts. -/
theorem get?_collected_of_perm (h : templates.Perm templates')
    (honce : SavedOnce (prepared templates dataModel names registry)) :
    (collected templates dataModel names registry).1.get? =
      (collected templates' dataModel names registry).1.get? := by
  funext g
  have hfirst := findSome?_eq_of_perm (prepared_perm dataModel names registry h)
    (honce.imp fun hst => hst g)
  refine ((collectAll_eq (prepared templates dataModel names registry) []).2 g).trans ?_
  rw [hfirst]
  exact ((collectAll_eq (prepared templates' dataModel names registry) []).2 g).symm

/-- Every artifact comes from its own template and the table. -/
theorem texts_eq_map (templates : ArtifactTexts) :
    (synthesize templates dataModel names registry).value.texts =
      (prepared templates dataModel names registry).map fun (kind, t) =>
        (kind, (renderOne (collected templates dataModel names registry).1 registry.records kind
          (cutAll Fragment.all t)).value) := by
  have hcut : (collected templates dataModel names registry).2 = _ :=
    (collectAll_eq (prepared templates dataModel names registry) []).1
  rw [value_synthesize, hcut, List.map_map]
  rfl

theorem nodup_kinds_texts (hkinds : (templates.map Prod.fst).Nodup) :
    ((synthesize templates dataModel names registry).value.texts.map Prod.fst).Nodup := by
  rw [texts_eq_map, prepared, List.map_map, List.map_map]
  exact hkinds.sublist (List.filter_sublist.map Prod.fst)

/-- The order of the templates does not matter, if no fragment stands in two of those that are
used. -/
theorem synthesize_perm (h : templates.Perm templates') (hkinds : (templates.map Prod.fst).Nodup)
    (honce : SavedOnce (prepared templates dataModel names registry)) :
    (synthesize templates dataModel names registry).value.texts.Perm
      (synthesize templates' dataModel names registry).value.texts ∧
    ∀ kind, (synthesize templates dataModel names registry).value.texts.lookup kind =
      (synthesize templates' dataModel names registry).value.texts.lookup kind := by
  have hperm : (synthesize templates dataModel names registry).value.texts.Perm
      (synthesize templates' dataModel names registry).value.texts := by
    rw [texts_eq_map, texts_eq_map]
    simp only [value_renderOne_congr (get?_collected_of_perm dataModel names registry h honce)]
    exact (prepared_perm dataModel names registry h).map _
  refine ⟨hperm, fun kind => ?_⟩
  rw [List.lookup_eq_findSome?, List.lookup_eq_findSome?]
  refine findSome?_eq_of_perm hperm ?_
  refine (List.pairwise_map.1 (nodup_kinds_texts dataModel names registry hkinds)).imp ?_
  rintro ⟨kind₁, text₁⟩ ⟨kind₂, text₂⟩ hne
  by_cases hkind : kind = kind₁
  · right
    simpa [hkind] using hne
  · left
    simpa using hkind

/-- The fragment stands in one template and the anchor for it in the other. -/
def apartTemplates : ArtifactTexts :=
  [(.packageManifest, "[#PACKAGE_LIST#]"), (.cmakeLists, "#PACKAGE#$interfaceName$#END_PACKAGE#")]

def oneCall : Registry := ⟨[callOf "f" "p"]⟩

def anchorTemplate : Template :=
  ⟨[.text "[", .marker ⟨.hash, "PACKAGE_LIST"⟩, .text "]"], [0, 0, 0], rfl⟩

theorem prepared_apartTemplates :
    prepared apartTemplates false ⟨"", "", ""⟩ oneCall =
      [(.packageManifest, anchorTemplate),
        (.cmakeLists, ⟨[.marker ⟨.hash, "PACKAGE"⟩, .text "$interfaceName$",
          .marker ⟨.hash, "END_PACKAGE"⟩], [0, 0, 0], rfl⟩)] := by
  decide +kernel

theorem collected_apartTemplates :
    collected apartTemplates false ⟨"", "", ""⟩ oneCall =
      ([(.buildPackage, "$interfaceName$")],
        [(.packageManifest, anchorTemplate), (.cmakeLists, ⟨[], [], rfl⟩)]) := by
  change (collectAll [] (prepared apartTemplates false ⟨"", "", ""⟩ oneCall)).value = _
  rw [prepared_apartTemplates]
  decide +kernel

theorem texts_apartTemplates :
    (synthesize apartTemplates false ⟨"", "", ""⟩ oneCall).value.texts.lookup
      .packageManifest = some "[p]" := by
  have hoffers : Offer.ofRecords [(.buildPackage, "$interfaceName$")] oneCall.records =
      [⟨.buildPackageList, "p", true⟩] := by
    decide +kernel
  have hfree : ∀ o ∈ Offer.ofRecords [(.buildPackage, "$interfaceName$")] oneCall.records,
      MarkerFree o.text := by
    rw [hoffers]
    intro o ho
    rw [List.mem_singleton.1 ho]
    exact markerFree_of_all (by decide)
  have hflat : ∀ kt ∈ (collected apartTemplates false ⟨"", "", ""⟩ oneCall).2, kt.2.IsFlat :=
    fun kt h => isFlat_collected h
  rw [collected_apartTemplates] at hflat
  rw [value_synthesize, collected_apartTemplates, List.map_cons, List.lookup_cons_self,
    value_renderOne _ _ _ (hflat _ List.mem_cons_self) hfree, hoffers]
  decide +kernel

/-- The anchor is filled whether the fragment comes later or earlier. -/
theorem synthesize_perm_apart :
    (synthesize apartTemplates false ⟨"", "", ""⟩ oneCall).value.texts.lookup .packageManifest =
      some "[p]" ∧
    (synthesize apartTemplates.reverse false ⟨"", "", ""⟩ oneCall).value.texts.lookup
      .packageManifest = some "[p]" := by
  have hnone : ∀ fragment ∈ Fragment.all, anchorTemplate.savedText? fragment = none := by
    decide +kernel
  have honce : SavedOnce (prepared apartTemplates false ⟨"", "", ""⟩ oneCall) := by
    rw [prepared_apartTemplates]
    simpa [SavedOnce] using fun fragment => Or.inl (hnone fragment fragment.mem_all)
  have hsame := synthesize_perm false ⟨"", "", ""⟩ oneCall
    (List.reverse_perm apartTemplates).symm (by decide) honce
  exact ⟨texts_apartTemplates, (hsame.2 .packageManifest).symm.trans texts_apartTemplates⟩

end Artifacts

end SkillCompiler
