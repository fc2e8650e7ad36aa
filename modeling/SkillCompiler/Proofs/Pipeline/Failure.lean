import SkillCompiler.Proofs.Pipeline.Stage

/-!
# Steps that fail

A step that fails leaves the pipeline as it was, but for the registry: if `classify` stops at an
event that it cannot classify, the names it has met by then stay registered. Tried again on the same
files, a step fails in the same way if it left the registry alone; if it did not, it goes on after
the event at which it stopped.
-/

namespace SkillCompiler

open Step

namespace Pipeline

variable {p p' : Pipeline} {files : FileTree} {call : Call} {e : CompileError}

/-- The event that `classify` stopped at has its name registered and no record. Tried again,
`classify` goes on with the events after it. -/
theorem Abandons.exists_stopsAt (hstage : p.stage = .canonicalized) (h : Abandons p files e p') :
    ∃ declarations canonical c before last after, p.declarations = some declarations ∧
      outcome (classifier p.config declarations) ⟨p, files⟩ = (.ok c, ⟨p, files⟩) ∧
      p.canonical = some canonical ∧
      Event.ofStatechart canonical = before ++ last :: after ∧
      Registry.StopsAt c.classify p.registry before last e p'.registry ∧
      last.name ∈ p'.registry.names ∧ p'.registry.get? last.name = none ∧
      (outcome classify ⟨p', files⟩).1 =
        (Registry.populateFrom c.classify { duplicates := before.length + 1 } p'.registry
          after).value.1 := by
  obtain ⟨declarations, canonical, c, hdeclarations, hcanonical, hc, hpopulate, heq⟩ := h
  generalize p'.registry = registry at hpopulate heq
  subst heq
  obtain ⟨before, last, after, hevents, hstops⟩ :=
    Registry.exists_stopsAt _ _ _ _ _ _ hpopulate
  obtain ⟨hmem, hnone⟩ := hstops.get?_eq_none
  refine ⟨declarations, canonical, c, before, last, after, hdeclarations, hc, hcanonical, hevents,
    hstops, hmem, hnone, ?_⟩
  have hsame : outcome (classifier p.config declarations) ⟨{ p with registry }, files⟩ =
      (.ok c, ⟨{ p with registry }, files⟩) := by
    rw [readsFiles_classifier _ _ p, hc]
  have hagain := @outcome_classify { p with registry } files _ _ _ hstage hdeclarations hcanonical
    hsame
  rw [hagain, ← hstops.populate_again, hevents]
  rcases (registry.populate c.classify (before ++ last :: after)).value with ⟨_ | _, _⟩ <;> rfl

/-- A step that fails changes at most the registry. If it changes nothing, it fails in the same way
when it is tried again on the same files. Otherwise it is a `classify` that stopped at an event it
cannot classify: the events up to that one are registered, itself without a record, and another
`classify` takes them for processed. -/
theorem failed_step_keeps (hreachable : Reachable p) {w' : Workspace}
    (hfailed : outcome call.perform ⟨p, files⟩ = (.error e, w')) :
    { w'.pipeline with registry := p.registry } = p ∧
    (w'.pipeline = p ∧ outcome call.perform ⟨w'.pipeline, files⟩ = (.error e, w') ∨
      call = .classify ∧
      ∃ declarations canonical c before last after, p.declarations = some declarations ∧
        outcome (classifier p.config declarations) ⟨p, files⟩ = (.ok c, ⟨p, files⟩) ∧
        p.canonical = some canonical ∧
        Event.ofStatechart canonical = before ++ last :: after ∧
        Registry.StopsAt c.classify p.registry before last e w'.pipeline.registry ∧
        last.name ∈ w'.pipeline.registry.names ∧
        w'.pipeline.registry.get? last.name = none ∧
        (outcome classify ⟨w'.pipeline, files⟩).1 =
          (Registry.populateFrom c.classify { duplicates := before.length + 1 }
            w'.pipeline.registry after).value.1) := by
  have hends := hreachable.fits.ends files call
  have hsame : w'.pipeline = p → outcome call.perform ⟨w'.pipeline, files⟩ = (.error e, w') :=
    fun heq => by rw [heq, hfailed]
  rw [hfailed] at hends
  cases hends with
  | refused hstage => exact ⟨rfl, .inl ⟨rfl, hsame rfl⟩⟩
  | failed hstage hfails =>
    obtain ⟨registry, heq⟩ := hfails.exists_eq
    refine ⟨by rw [heq], ?_⟩
    rcases hfails.2 with heq | ⟨rfl, habandons⟩
    · exact .inl ⟨heq, hsame heq⟩
    · exact .inr ⟨rfl, habandons.exists_stopsAt hstage⟩

theorem failed_step_keeps_faulty :
    Reachable faultyPipeline ∧
    ∃ w', outcome Call.classify.perform ⟨faultyPipeline, faultyFiles⟩ =
        (.error (.missingAttribute "ros_topic_publisher" "name"), w') ∧
      { w'.pipeline with registry := faultyPipeline.registry } = faultyPipeline ∧
      w'.pipeline.registry.names = ["A.f"] ∧ w'.pipeline.registry.get? "A.f" = none := by
  have hevaluated :
      let ended := outcome Call.classify.perform ⟨faultyPipeline, faultyFiles⟩
      ended.1 = .error (.missingAttribute "ros_topic_publisher" "name") ∧
        ended.2.pipeline.registry = ⟨[("A.f", none)]⟩ := by decide +kernel
  obtain ⟨hfailed, hregistry⟩ := hevaluated
  have hended : outcome Call.classify.perform ⟨faultyPipeline, faultyFiles⟩ =
      (.error (.missingAttribute "ros_topic_publisher" "name"), _) := Prod.ext hfailed rfl
  refine ⟨reachable_faultyPipeline, _, hended,
    (failed_step_keeps reachable_faultyPipeline hended).1, ?_, ?_⟩
  · rw [hregistry]
    rfl
  · rw [hregistry]
    rfl

/-- A failed `classify` is not without effect: it registers the name of the event it stopped at, and
the next one ends well with that event in no record and not among the unclassified. -/
theorem classify_again_passes_over :
    Reachable faultyPipeline ∧ faultyPipeline.registry.names = [] ∧
    let failed := outcome Call.classify.perform ⟨faultyPipeline, faultyFiles⟩
    failed.1 = .error (.missingAttribute "ros_topic_publisher" "name") ∧
      failed.2.pipeline.registry.names = ["A.f"] ∧
      let again := outcome classify ⟨failed.2.pipeline, faultyFiles⟩
      again.1 = .ok { duplicates := 1 } ∧ again.2.pipeline.registry.records = [] :=
  ⟨reachable_faultyPipeline, by decide +kernel⟩

end Pipeline

end SkillCompiler
