import SkillCompiler.Proofs.Pipeline.Effect

/-!
# One name for a skill

The names of a skill are read off twice: when its statechart is made, from the root name and the
services that the skill offers, and when its artifacts are made, from the root name of the
statechart. The second reading gives what the first one gave (`SkillNames.ofRoot_of_withKind`), for
no pass touches the root (`Canonical.name_of_canonicalize`). So the statechart and the artifacts of
a pipeline are named after one class, whichever calls led to them.
-/

namespace SkillCompiler

open Document Step

namespace Canonical

/-- A skill is an action exactly if one of its services is a halt command. -/
theorem kindOf_eq_action_iff {doc : Document} :
    kindOf doc = .action ↔
      ∃ id ∈ doc.descendants doc.root, doc.hasTag id "ros_service_server" ∧
        ∃ type, doc.attribute? id "type" = some type ∧ ∃ t ∈ haltTypes, Text.contains t type := by
  have hany : (haltTypes.any fun t =>
      (doc.findContaining? doc.root "ros_service_server" "type" t).isSome) ↔
      ∃ id ∈ doc.descendants doc.root, doc.hasTag id "ros_service_server" ∧
        ∃ type, doc.attribute? id "type" = some type ∧ ∃ t ∈ haltTypes, Text.contains t type := by
    simp only [List.any_eq_true, findContaining?, List.find?_isSome, Bool.and_eq_true,
      Option.any_eq_true]
    constructor
    · rintro ⟨t, ht, id, hid, htag, type, htype, hcontains⟩
      exact ⟨id, hid, htag, type, htype, t, ht, hcontains⟩
    · rintro ⟨id, hid, htag, type, htype, t, ht, hcontains⟩
      exact ⟨t, ht, id, hid, htag, type, htype, hcontains⟩
  rw [← hany, kindOf]
  split <;> simp_all

end Canonical

namespace Pipeline

variable {p : Pipeline}

theorem Reachable.isNamed (h : Reachable p) : p.IsNamed := by
  induction h with
  | start h => exact isNamed_ofOptions h
  | call h files call ih => exact (respects_perform h.fits ih files call).isNamed

/-- The class in the name of the statechart's file is that of the artifacts. -/
theorem IsNamed.canonicalPath_eq {path : Path} {a : Artifacts} (h : p.IsNamed)
    (hpath : p.canonicalPath = some path) (ha : p.artifacts = some a) :
    path = (p.config.outputDir.join "src").join a.names.canonicalFile := by
  obtain ⟨names, hclass, rfl⟩ := h.canonicalPath path hpath
  have hsame : names.className = a.names.className :=
    Option.some.inj (hclass.symm.trans (h.artifacts a ha))
  rw [SkillNames.canonicalFile, SkillNames.canonicalFile, hsame]

/-- However a document came about, the root name of its statechart says the very names with which
the statechart was made, and the kind that the services of the document decide. In every pipeline
that can be reached, the file of the statechart, its root and the artifacts have one class. -/
theorem statechart_says_names :
    (∀ {text : String} {source doc : Document} {edits : List Edit} {c : Canonical},
      Document.parse text = .ok source → Edit.Issued source edits → Edit.run source edits = doc →
      (Canonical.canonicalize doc).result = .ok c →
      (∃ root, c.document.attribute? c.document.root "name" = some root ∧
        SkillNames.ofRoot root = .ok c.names) ∧
      c.names.kind = Canonical.kindOf doc ∧
      (c.names.kind = .action ↔
        ∃ id ∈ doc.descendants doc.root, doc.hasTag id "ros_service_server" ∧
          ∃ type, doc.attribute? id "type" = some type ∧
            ∃ t ∈ Canonical.haltTypes, Text.contains t type)) ∧
    ∀ {p : Pipeline} {path : Path} {a : Artifacts}, Reachable p → p.canonicalPath = some path →
      p.artifacts = some a →
      path = (p.config.outputDir.join "src").join a.names.canonicalFile ∧
      ∀ chart, p.canonical = some chart → chart.skillClass? = some a.names.className := by
  refine ⟨fun hparse hissued hrun hc => ?_, fun hp hpath ha => ?_⟩
  · have hlinked := (linked_of_parse hparse).run hissued
    rw [hrun] at hlinked
    obtain ⟨hnames, hkind⟩ := SkillNames.ofRoot_of_withKind (Canonical.withKind_of_canonicalize hc)
    refine ⟨⟨_, Canonical.name_of_canonicalize hlinked hc, hnames⟩, hkind, ?_⟩
    rw [hkind, Canonical.kindOf_eq_action_iff]
  · have hnamed := hp.isNamed
    refine ⟨hnamed.canonicalPath_eq hpath ha, fun chart hchart => ?_⟩
    rw [hnamed.canonical chart hchart, hnamed.artifacts _ ha]

/-- A skill whose name holds the word twice. -/
def doubleSkill : Document := ofForest none (.leaf (.element "s" [⟨"name", "ASkillBSkill"⟩]))

/-- Calls that make a skill offer to be halted. -/
def haltEdits : List Edit :=
  [.createElement "ros_service_server" [⟨"type", "bt_interfaces/HaltAction"⟩], .appendChild 0 1]

/-- The pipeline of a skill whose class leads one directory up, with its artifacts made. -/
def climbedPipeline : Pipeline :=
  ([Call.canonicalize, .classify, .synthesize].foldl (fun w call => (outcome call.perform w).2)
    ⟨climbingPipeline, climbingFiles⟩).pipeline

theorem statechart_says_names_double :
    Document.parse "<s name=\"ASkillBSkill\"/>" = .ok doubleSkill ∧
    Edit.Issued doubleSkill haltEdits ∧
    (∃ c, (Canonical.canonicalize (Edit.run doubleSkill haltEdits)).result = .ok c ∧
      c.document.attribute? c.document.root "name" = some "ASkillAction" ∧
      SkillNames.ofRoot "ASkillAction" = .ok c.names ∧ c.names.kind = .action) ∧
    Reachable climbedPipeline ∧
    ∃ a, climbedPipeline.artifacts = some a ∧ a.names.className = "../ASkill" ∧
      climbedPipeline.canonicalPath = some "o/src/../ASkillSM.scxml" ∧
      "o/src/../ASkillSM.scxml" =
        (climbedPipeline.config.outputDir.join "src").join a.names.canonicalFile := by
  have hparse : Document.parse "<s name=\"ASkillBSkill\"/>" = .ok doubleSkill := by decide +kernel
  have hissued : Edit.Issued doubleSkill haltEdits := by decide +kernel
  have hdouble : (Canonical.canonicalize (Edit.run doubleSkill haltEdits)).result.toOption.map
      (fun c => (c.document.attribute? c.document.root "name", c.names.kind)) =
      some (some "ASkillAction", .action) := by decide +kernel
  have hreachable : Reachable climbedPipeline :=
    .call (.call (.call (.start (o := climbingOptions) rfl) climbingFiles .canonicalize)
      _ .classify) _ .synthesize
  have hclimbed : climbedPipeline.canonicalPath = some "o/src/../ASkillSM.scxml" ∧
      climbedPipeline.artifacts.map (·.names.className) = some "../ASkill" := by decide +kernel
  refine ⟨hparse, hissued, ?_, hreachable, ?_⟩
  · rcases hc : (Canonical.canonicalize (Edit.run doubleSkill haltEdits)).result with e | c <;>
      rw [hc] at hdouble
    · cases hdouble
    · have hdouble := Option.some.inj hdouble
      rw [Prod.mk.injEq] at hdouble
      obtain ⟨⟨root, hroot, hnames⟩, -⟩ := statechart_says_names.1 hparse hissued rfl hc
      cases hdouble.1.symm.trans hroot
      exact ⟨c, rfl, hroot, hnames, hdouble.2⟩
  · obtain ⟨hpath, ha⟩ := hclimbed
    obtain ⟨a, ha, hclass⟩ := Option.map_eq_some_iff.1 ha
    exact ⟨a, ha, hclass, hpath, (statechart_says_names.2 hreachable hpath ha).1⟩

end Pipeline

end SkillCompiler
