import Mathlib.Data.List.Nodup
import SkillCompiler.Proofs.Synthesis.Order
import SkillCompiler.Proofs.Template.Sweep

/-!
# Nested fragments

Fragments are cut out in a fixed order. Where those inside others come first, the fragments before
one are gone when it is its turn, and those around it are still there, so what is extracted is what
stands in it without the fragments in it (`skipped_resolved_append`). `collect_nested` says what the
table holds then and what is left of the template, and that a text in the table stays.
-/

namespace SkillCompiler

open Template

namespace Nesting

/-- What stands in each occurrence of a region, in the order of the opening markers. -/
def interiors (r : Region) : Nesting → List Nesting
  | nil => []
  | segment _ rest => rest.interiors r
  | region q inner rest =>
    (if q = r then [inner] else []) ++ (inner.interiors r ++ rest.interiors r)

/-- A region that lies inside another one comes before it in the list. -/
def IsInsideOut (given : List Region) : Nesting → Prop
  | nil => True
  | segment _ rest => rest.IsInsideOut given
  | region r inner rest =>
    (∀ q ∈ inner.regions, given.idxOf q < given.idxOf r) ∧
      inner.IsInsideOut given ∧ rest.IsInsideOut given

instance decidableIsInsideOut (given : List Region) :
    ∀ n : Nesting, Decidable (n.IsInsideOut given)
  | nil => inferInstanceAs (Decidable True)
  | segment _ rest => decidableIsInsideOut given rest
  | region _ inner rest =>
    have := decidableIsInsideOut given inner
    have := decidableIsInsideOut given rest
    inferInstanceAs (Decidable (_ ∧ _ ∧ _))

/-- The fates when the regions that come before `r` in the list have been deleted. -/
def deletedBefore (given : List Region) (r q : Region) : Option Bool :=
  if given.idxOf q < given.idxOf r then some false else none

theorem interiors_eq_nil {r : Region} {n : Nesting} (h : r ∉ n.regions) : n.interiors r = [] := by
  induction n with
  | nil => rfl
  | segment s rest ih => exact ih h
  | region q inner rest ihi ihr =>
    simp only [regions, List.mem_cons, List.mem_append, not_or] at h
    rw [interiors, if_neg (Ne.symm h.1), ihi h.2.1, ihr h.2.2]
    rfl

/-- When the regions before it are gone, what is skipped with a region is what stands in it without
the regions in it. -/
theorem skipped_resolved_append {given : List Region} (hgiven : given.Pairwise Region.IsApart)
    {r : Region} (hr : r ∈ given) {n : Nesting} (hn : n.IsProper given)
    (hout : n.IsInsideOut given) (tail : List Segment) :
    (sweep r (n.resolved (deletedBefore given r) ++ tail)).skipped =
      (n.interiors r).map (·.outside fun _ => true) ++ (sweep r tail).skipped := by
  induction n generalizing tail with
  | nil => rfl
  | segment s rest ih =>
    rw [resolved, List.cons_append, sweep_cons (hn.1 r hr), ih hn.2 hout]
    rfl
  | region q inner rest ihi ihr =>
    obtain ⟨hq, hnot, hinner, hrest⟩ := hn
    obtain ⟨hbefore, houti, houtr⟩ := hout
    by_cases hqr : q = r
    · subst hqr
      have hclose : .marker q.closing ∉ inner.resolved (deletedBefore given q) := fun hm =>
        not_isMarker_of_mem_resolved hgiven hr _ hinner hnot _ hm (Or.inr rfl)
      have hinside : inner.resolved (deletedBefore given q) = inner.outside fun _ => true :=
        resolved_eq_outside fun p hp => if_pos (hbefore p hp)
      have hfate : deletedBefore given q q = none := if_neg (Nat.lt_irrefl _)
      rw [resolved, hfate, interiors, if_pos rfl, interiors_eq_nil hnot]
      simp only [List.cons_append, List.append_assoc]
      rw [sweep_span hclose, hinside, ihr hrest houtr]
      rfl
    · rw [resolved, interiors, if_neg hqr, List.nil_append, List.map_append, List.append_assoc]
      by_cases hlt : given.idxOf q < given.idxOf r
      · -- What is deleted with `q` are regions before `q`, so `r` is not among them.
        have hgone : r ∉ inner.regions := fun hmem => by
          have := hbefore r hmem
          omega
        have hfate : deletedBefore given r q = some false := if_pos hlt
        rw [hfate, interiors_eq_nil hgone]
        exact ihr hrest houtr tail
      · have hfate : deletedBefore given r q = none := if_neg hlt
        obtain ⟨hopen, hclose⟩ := (isApart_of_ne hgiven hr hq hqr).not_isMarker
        rw [hfate]
        simp only [List.cons_append, List.append_assoc]
        rw [sweep_cons hopen, ihi hinner houti, sweep_cons hclose, ihr hrest houtr]

end Nesting

/-- What stands before an element in a list. -/
theorem mem_takeWhile_ne_iff {α : Type} [DecidableEq α] (a b : α) :
    ∀ l : List α, b ∈ l.takeWhile (· ≠ a) ↔ l.idxOf b < l.idxOf a
  | [] => by simp
  | c :: l => by
    have ih := mem_takeWhile_ne_iff a b l
    by_cases hca : c = a
    · simp [hca]
    · rw [List.takeWhile_cons_of_pos (by simpa using hca), List.mem_cons, ih]
      by_cases hcb : c = b
      · subst hcb
        simp [hca]
      · simp [hca, hcb, Ne.symm hcb]

namespace Fragment

/-- The regions of the fragments, in the order in which they are cut out. -/
def regions : List Region := all.map region

theorem pairwise_isApart_regions : regions.Pairwise Region.IsApart := by
  decide +kernel

theorem region_injective : Function.Injective region := fun f g h =>
  List.inj_on_of_nodup_map (Region.nodup_of_pairwise_isApart pairwise_isApart_regions)
    (mem_all f) (mem_all g) h

theorem mem_regions (f : Fragment) : f.region ∈ regions := List.mem_map_of_mem (mem_all f)

/-- The fragments before one are those whose regions come before its region. -/
theorem mem_map_takeWhile_iff {f : Fragment} {q : Region} :
    q ∈ (all.takeWhile (· ≠ f)).map region ↔ regions.idxOf q < regions.idxOf f.region := by
  have hsame : (fun g => decide (g ≠ f)) = (fun q => decide (q ≠ f.region)) ∘ region := by
    funext g
    simp [region_injective.eq_iff]
  rw [hsame, ← List.takeWhile_map]
  exact mem_takeWhile_ne_iff _ _ _

end Fragment

namespace Template

section

variable {t : Template} {n : Nesting} (hsegments : t.segments = n.segments)
  (hn : n.IsProper Fragment.regions)

include hsegments hn

/-- What cutting some fragments out leaves. -/
theorem segments_cutAll {fragments : List Fragment} (hnodup : fragments.Nodup) :
    (cutAll fragments t).segments =
      n.resolved fun q => if q ∈ fragments.map Fragment.region then some false else none := by
  have hmap : (fragments.map fun f => (f.region, false)).map Prod.fst =
      fragments.map Fragment.region := by
    rw [List.map_map]
    rfl
  have hregions : (fragments.map Fragment.region).Nodup :=
    hnodup.map Fragment.region_injective
  have hrun : cutAll fragments t = t.toggleAll (fragments.map fun f => (f.region, false)) := by
    rw [cutAll, toggleAll, List.foldl_map]
    rfl
  rw [hrun, segments_toggleAll_resolved Fragment.pairwise_isApart_regions hn
    (hmap ▸ List.map_subset _ fun f _ => f.mem_all) (hmap ▸ hregions) (fun _ _ => rfl)
    (hsegments.trans n.resolved_none.symm)]
  congr 1
  funext q
  split
  · rename_i hq
    obtain ⟨f, hf, rfl⟩ := List.mem_map.1 hq
    exact fateAfter_of_mem _ (hmap ▸ hregions) (List.mem_map.2 ⟨f, hf, rfl⟩)
  · rename_i hq
    exact fateAfter_of_notMem _ (hmap ▸ hq)

theorem savedText?_eq (hout : n.IsInsideOut Fragment.regions) (f : Fragment) :
    t.savedText? f = (n.interiors f.region).head?.map fun inner =>
      renderSegments (inner.outside fun _ => true) := by
  have hnodup : (Fragment.all.takeWhile (· ≠ f)).Nodup :=
    Fragment.nodup_all.sublist (List.takeWhile_sublist _)
  have hcut : (cutAll (Fragment.all.takeWhile (· ≠ f)) t).segments =
      n.resolved (Nesting.deletedBefore Fragment.regions f.region) := by
    rw [segments_cutAll hsegments hn hnodup]
    simp only [Fragment.mem_map_takeWhile_iff]
    rfl
  have hskipped := n.skipped_resolved_append Fragment.pairwise_isApart_regions f.mem_regions hn
    hout []
  rw [List.append_nil, sweep_nil, List.append_nil] at hskipped
  rw [savedText?, extract_eq, hcut, hskipped, List.head?_map, Option.map_map]
  rfl

end

end Template

namespace FragmentTable

/-- Where fragments inside others come first, a fragment is saved as the text of its first
occurrence without the fragments in it, nothing is saved for one that does not occur, and what
stands outside all fragments is left. Templates that come later change no text in the table. -/
theorem collect_nested :
    (∀ (t : Template) (n : Nesting), t.segments = n.segments → n.IsProper Fragment.regions →
      n.IsInsideOut Fragment.regions →
        (∀ f, (collect [] t).value.1.get? f = (n.interiors f.region).head?.map fun inner =>
          renderSegments (inner.outside fun _ => true)) ∧
        (collect [] t).value.2.segments = n.outside fun _ => true) ∧
    ∀ (table : FragmentTable) (later : List (ArtifactKind × Template)) (f : Fragment)
      (text : String), table.get? f = some text →
        (Artifacts.collectAll table later).value.1.get? f = some text := by
  constructor
  · intro t n hsegments hn hout
    obtain ⟨htemplate, htable⟩ := collect_eq [] t
    refine ⟨fun f => (htable f).trans (savedText?_eq hsegments hn hout f), ?_⟩
    rw [htemplate, segments_cutAll hsegments hn Fragment.nodup_all]
    exact Nesting.resolved_eq_outside fun r hr => if_pos (hn.regions_subset hr)
  · intro table later f text h
    rw [(Artifacts.collectAll_eq later table).2 f, h, Option.some_or]

/-- A package with an interface in it. -/
def nestedText : String := "a#PACKAGE#b#INTERFACE#c#END_INTERFACE#d#END_PACKAGE#e"

def nestedFragments : Nesting :=
  .segment (.text "a") <| .region Fragment.buildPackage.region
    (.segment (.text "b") <| .region Fragment.buildInterface.region (.segment (.text "c") .nil) <|
      .segment (.text "d") .nil)
    (.segment (.text "e") .nil)

theorem collect_nested_package :
    (collect [] (parse nestedText)).value.1.get? .buildInterface = some "c" ∧
    (collect [] (parse nestedText)).value.1.get? .buildPackage = some "bd" ∧
    (collect [] (parse nestedText)).value.1.get? .packageInterface = none ∧
    (collect [] (parse nestedText)).value.2.render = "ae" ∧
    (Artifacts.collectAll [(.param, "p")] [(.main, parse "/*PARAM*/q/*END_PARAM*/")]).value.1.get?
      .param = some "p" := by
  have hsegments : (parse nestedText).segments = nestedFragments.segments := by decide +kernel
  obtain ⟨htable, hleft⟩ := collect_nested.1 (parse nestedText) nestedFragments hsegments
    (by decide +kernel) (by decide +kernel)
  have hkept := collect_nested.2 [(.param, "p")] [(.main, parse "/*PARAM*/q/*END_PARAM*/")] .param
    "p" rfl
  refine ⟨?_, ?_, ?_, ?_, hkept⟩
  · rw [htable]
    decide +kernel
  · rw [htable]
    decide +kernel
  · rw [htable]
    decide +kernel
  · rw [render, hleft]
    decide +kernel

end FragmentTable

end SkillCompiler
