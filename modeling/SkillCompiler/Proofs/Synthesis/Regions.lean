import Mathlib.Data.List.Nodup
import SkillCompiler.Proofs.Log
import SkillCompiler.Proofs.Template.Nesting
import SkillCompiler.Synthesis.Render

/-!
# The optional regions of a template

The regions that are toggled before anything else have no marker in common
(`pairwise_isApart_toggledRegions`), so each is toggled once and by one choice
(`mem_optionalRegions`). Where they are nested in each other, their order does not matter
(`toggleAll_any_order`).
-/

namespace SkillCompiler

open Template

namespace Artifacts

/-- The optional regions, in the order in which they are toggled. -/
def toggledRegions : List Region :=
  Region.everyStyle "ACTION" ++ [.named .block "DATAMODEL", .named .hash "DATAMODEL"] ++
    ReservedEvent.all.flatMap lifecycleRegions

theorem map_fst_optionalRegions (names : SkillNames) (dataModel : Bool) (registry : Registry) :
    (optionalRegions names dataModel registry).map Prod.fst = toggledRegions := by
  simp [optionalRegions, toggledRegions, List.map_flatMap, Function.comp_def]

theorem pairwise_isApart_toggledRegions : toggledRegions.Pairwise Region.IsApart := by
  decide +kernel

theorem mem_optionalRegions {names : SkillNames} {dataModel : Bool} {registry : Registry}
    {e : ReservedEvent} {region : Region} (hregion : region ∈ lifecycleRegions e) {kept : Bool} :
    (region, kept) ∈ optionalRegions names dataModel registry ↔
      kept = registry.containsReserved e := by
  have hmem : (region, registry.containsReserved e) ∈
      optionalRegions names dataModel registry := by
    refine List.mem_append_right _ (List.mem_flatMap.2 ⟨e, ?_, List.mem_map.2 ⟨_, hregion, rfl⟩⟩)
    cases e <;> decide
  have hnodup : ((optionalRegions names dataModel registry).map Prod.fst).Nodup := by
    rw [map_fst_optionalRegions]
    exact Region.nodup_of_pairwise_isApart pairwise_isApart_toggledRegions
  constructor
  · intro hkept
    exact congrArg Prod.snd (List.inj_on_of_nodup_map hnodup hkept hmem rfl)
  · rintro rfl
    exact hmem

theorem value_prepare (names : SkillNames) (dataModel : Bool) (registry : Registry)
    (text : String) :
    (prepare names dataModel registry text).value =
      (parse ((Placeholders.forSkill names).apply text)).toggleAll
        (optionalRegions names dataModel registry) := by
  rw [prepare, Logged.value_foldlM]
  rfl

/-- Nested regions may be toggled in any order: what stands in no deleted region is left, without
the markers of the regions. So the optional regions may be toggled in any order, too. -/
theorem toggleAll_any_order :
    (∀ (text : String) (choices order : List (Region × Bool)) (n : Nesting),
      (parse text).segments = n.segments → (choices.map Prod.fst).Pairwise Region.IsApart →
        n.IsProper (choices.map Prod.fst) → order.Perm choices →
          (parse text).toggleAll order = (parse text).toggleAll choices ∧
            ((parse text).toggleAll order).segments =
              n.outside fun r => (r, false) ∈ choices) ∧
    ∀ (names : SkillNames) (dataModel : Bool) (registry : Registry) (text : String)
      (order : List (Region × Bool)) (n : Nesting),
      (parse ((Placeholders.forSkill names).apply text)).segments = n.segments →
        n.IsProper toggledRegions → order.Perm (optionalRegions names dataModel registry) →
          (parse ((Placeholders.forSkill names).apply text)).toggleAll order =
              (prepare names dataModel registry text).value ∧
            (prepare names dataModel registry text).value.segments =
              n.outside fun r => (r, false) ∈ optionalRegions names dataModel registry := by
  constructor
  · intro text choices order n hsegments hapart hn hperm
    have hsame := (isFlat_parse text).toggleAll_perm hsegments hapart hn hperm
    refine ⟨hsame, ?_⟩
    rw [hsame, segments_toggleAll hapart hn (.refl _) hsegments]
  · intro names dataModel registry text order n hsegments hn hperm
    have hmap := map_fst_optionalRegions names dataModel registry
    have hapart := pairwise_isApart_toggledRegions
    rw [← hmap] at hn hapart
    rw [value_prepare]
    exact ⟨(isFlat_parse _).toggleAll_perm hsegments hapart hn hperm,
      segments_toggleAll hapart hn (.refl _) hsegments⟩

/-- An action with a region that is deleted and one that is kept in it. -/
def nestedText : String := "a#ACTION#b#HALT#c#END_HALT##TICK#d#END_TICK##END_ACTION#e"

def nestedRegions : Nesting :=
  .segment (.text "a") <| .region (.named .hash "ACTION")
    (.segment (.text "b") <| .region (.named .hash "HALT") (.segment (.text "c") .nil) <|
      .region (.named .hash "TICK") (.segment (.text "d") .nil) .nil)
    (.segment (.text "e") .nil)

def nestedChoices : List (Region × Bool) :=
  [(.named .hash "ACTION", true), (.named .hash "HALT", false), (.named .hash "TICK", true)]

def tickedNames : SkillNames := ⟨"XSkillAction", "X", "Action"⟩

def tickedRegistry : Registry := ⟨[("CMD_TICK", none)]⟩

theorem toggleAll_any_order_nested :
    (parse nestedText).toggleAll nestedChoices.reverse =
      (parse nestedText).toggleAll nestedChoices ∧
    (parse nestedText).toggleAll (optionalRegions tickedNames false tickedRegistry).reverse =
      (prepare tickedNames false tickedRegistry nestedText).value ∧
    (prepare tickedNames false tickedRegistry nestedText).value.render = "abde" := by
  have hsegments : (parse nestedText).segments = nestedRegions.segments := by decide +kernel
  have happly : (Placeholders.forSkill tickedNames).apply nestedText = nestedText := by
    decide +kernel
  have hall := toggleAll_any_order.2 tickedNames false tickedRegistry nestedText _ nestedRegions
    (by rw [happly]; exact hsegments) (by decide +kernel) (List.reverse_perm _)
  rw [happly] at hall
  have hsome := toggleAll_any_order.1 nestedText nestedChoices _ nestedRegions hsegments
    (by decide +kernel) (by decide +kernel) (List.reverse_perm _)
  refine ⟨hsome.1, hall.1, ?_⟩
  rw [render, hall.2]
  decide +kernel

end Artifacts

end SkillCompiler
