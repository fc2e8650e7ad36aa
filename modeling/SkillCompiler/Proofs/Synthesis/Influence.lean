import SkillCompiler.Proofs.Synthesis.Order

/-!
# What the artifacts depend on

Of a registry, the artifacts depend on the reserved names in it, which decide about the lifecycle
regions, and on the classified events that are not reserved, in their order. Any other record leaves
a draft as it is, the dependencies listed so far included (`value_render_of_not_isRendered`),
wherever it stands in the run (`value_foldlM_render_filter`). So registries that differ in nothing
else give the same artifacts (`synthesize_of_same_rendered`).
-/

namespace SkillCompiler

/-- The event is not reserved, and it is classified. Only such events are rendered. -/
def Record.isRendered (record : Record) : Bool :=
  record.event.reserved?.isNone && record.classification.isClassified

theorem Task.ofRecord_of_not_isRendered (table : FragmentTable) {record : Record}
    (h : ¬ record.isRendered) : ofRecord table record = none := by
  unfold ofRecord
  split
  · rfl
  · rename_i hreserved
    have hnone : record.event.reserved? = none := by simpa using hreserved
    have hkind : record.classification.kind = none := by
      simpa [Record.isRendered, Classification.isClassified, hnone] using h
    rw [hkind]
    rfl

namespace Draft

theorem value_render_of_not_isRendered (table : FragmentTable) (d : Draft) {record : Record}
    (h : ¬ record.isRendered) : (render table d record).value = d := by
  rw [render, Task.ofRecord_of_not_isRendered table h]
  rfl

/-- Records that are not rendered may be left out anywhere. -/
theorem value_foldlM_render_filter (table : FragmentTable) :
    ∀ (records : List Record) (d : Draft),
      (records.foldlM (render table) d).value =
        ((records.filter Record.isRendered).foldlM (render table) d).value
  | [], _ => rfl
  | record :: records, d => by
    have ih := value_foldlM_render_filter table records
    by_cases h : record.isRendered
    · rw [List.filter_cons_of_pos h, List.foldlM_cons, List.foldlM_cons, Logged.value_bind,
        Logged.value_bind, ih]
    · rw [List.filter_cons_of_neg h, List.foldlM_cons, Logged.value_bind,
        value_render_of_not_isRendered table d h, ih]

end Draft

namespace Artifacts

open Template

theorem value_renderOne_filter (table : FragmentTable) (records : List Record)
    (kind : ArtifactKind) (t : Template) :
    (renderOne table records kind t).value =
      (renderOne table (records.filter Record.isRendered) kind t).value := by
  simp only [renderOne, Logged.value_bind, Logged.value_pure]
  rw [Draft.value_foldlM_render_filter]

section

variable {registry registry' : Registry}
  (hreserved : ∀ e, registry.containsReserved e = registry'.containsReserved e)

include hreserved

theorem prepare_congr (names : SkillNames) (dataModel : Bool) (text : String) :
    prepare names dataModel registry text = prepare names dataModel registry' text := by
  unfold prepare optionalRegions
  simp only [hreserved]

theorem collected_congr (templates : ArtifactTexts) (dataModel : Bool) (names : SkillNames) :
    collected templates dataModel names registry =
      collected templates dataModel names registry' := by
  unfold collected
  simp only [prepare_congr hreserved]

end

/-- Registries with the same reserved names and the same rendered records in the same order give the
same artifacts, whatever else they hold. -/
theorem synthesize_of_same_rendered {registry registry' : Registry}
    (hreserved : ∀ e, registry.containsReserved e = registry'.containsReserved e)
    (hrecords : registry.records.filter Record.isRendered =
      registry'.records.filter Record.isRendered)
    (templates : ArtifactTexts) (dataModel : Bool) (names : SkillNames) :
    (synthesize templates dataModel names registry).value =
      (synthesize templates dataModel names registry').value := by
  have htexts : (synthesize templates dataModel names registry).value.texts =
      (synthesize templates dataModel names registry').value.texts := by
    rw [value_synthesize, value_synthesize, collected_congr hreserved]
    refine List.map_congr_left fun (kind, t) _ => congrArg (kind, ·) ?_
    rw [value_renderOne_filter, hrecords, ← value_renderOne_filter]
  exact congrArg (Artifacts.mk names) htexts

/-- A skill that is ticked and calls a service. -/
def plainRegistry : Registry :=
  ⟨[("CMD_TICK", some ⟨.transition "CMD_TICK" "t", none, {}⟩), callOf "f" "q"]⟩

/-- The same with an event that has no address, one that could not be classified, and another event
for the tick, which comes last. -/
def noisyRegistry : Registry :=
  ⟨[("go", some ⟨.transition "go" "t", none, {}⟩), callOf "f" "q", ("A.g.Call", none),
    ("CMD_TICK", some ⟨.send "CMD_TICK" [("x", "1")], none, {}⟩)]⟩

def tickTemplates : ArtifactTexts :=
  [(.cmakeLists, "#TICK#t#END_TICK##PACKAGE#p#END_PACKAGE##PACKAGE_LIST#")]

theorem synthesize_of_same_rendered_noisy :
    (∀ e, plainRegistry.containsReserved e = noisyRegistry.containsReserved e) ∧
    plainRegistry.records.filter Record.isRendered =
      noisyRegistry.records.filter Record.isRendered ∧
    (synthesize tickTemplates false ⟨"", "", ""⟩ plainRegistry).value.texts =
      [(.cmakeLists, "tp")] ∧
    (synthesize tickTemplates false ⟨"", "", ""⟩ noisyRegistry).value.texts =
      [(.cmakeLists, "tp")] := by
  have hreserved : ∀ e, plainRegistry.containsReserved e = noisyRegistry.containsReserved e := by
    intro e
    cases e <;> decide +kernel
  have hrecords : plainRegistry.records.filter Record.isRendered =
      noisyRegistry.records.filter Record.isRendered := by
    decide +kernel
  have hplain : (synthesize tickTemplates false ⟨"", "", ""⟩ plainRegistry).value.texts =
      [(.cmakeLists, "tp")] := by
    decide +kernel
  have hsame := synthesize_of_same_rendered hreserved hrecords tickTemplates false ⟨"", "", ""⟩
  exact ⟨hreserved, hrecords, hplain, hsame ▸ hplain⟩

end Artifacts

end SkillCompiler
