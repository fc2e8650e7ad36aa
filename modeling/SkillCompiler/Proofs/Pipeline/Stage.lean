import SkillCompiler.Proofs.Pipeline.Blame

/-!
# Stages of a pipeline

The four steps may be called in any order, on any files. A step that is not the next one is refused
and changes nothing; the next one either takes the pipeline one stage further (`Advances`) or fails
and leaves it where it was. So in every pipeline that can be reached, what has been made is what the
stage says has been made (`Fits`), and a step that is the next one finds all it needs.
-/

namespace SkillCompiler

namespace Stage

/-- How many steps lead to a stage. -/
def rank : Stage → Nat
  | start => 0
  | canonicalized => 1
  | classified => 2
  | synthesized => 3
  | written => 4

instance : LE Stage := ⟨fun a b => a.rank ≤ b.rank⟩

instance (a b : Stage) : Decidable (a ≤ b) := inferInstanceAs (Decidable (a.rank ≤ b.rank))

theorem eq_of_rank_eq {a b : Stage} : a.rank = b.rank → a = b := by
  cases a <;> cases b <;> decide

/-- One stage further nothing is due that was not, but for that stage itself. -/
theorem le_iff_of_rank {a s s' : Stage} (h : s'.rank = s.rank + 1) (ha : a ≠ s') :
    a ≤ s ↔ a ≤ s' := by
  have hne : a.rank ≠ s'.rank := fun heq => ha (eq_of_rank_eq heq)
  show a.rank ≤ s.rank ↔ a.rank ≤ s'.rank
  omega

end Stage

/-! ## Where steps lead -/

namespace Step

variable {α β : Type} {x : Step α} {f : α → Step β} {w w₁ : Workspace}

/-- Where a step leads from a workspace, by how it ends. -/
def Leads (x : Step α) (w : Workspace) (good : α → Workspace → Prop)
    (bad : CompileError → Workspace → Prop) : Prop :=
  match outcome x w with
  | (.ok a, w') => good a w'
  | (.error e, w') => bad e w'

theorem Leads.of_ok {good : α → Workspace → Prop} {bad : CompileError → Workspace → Prop} {a : α}
    (h : outcome x w = (.ok a, w₁)) (hgood : good a w₁) : Leads x w good bad := by
  unfold Leads
  rw [h]
  exact hgood

theorem Leads.of_error {good : α → Workspace → Prop} {bad : CompileError → Workspace → Prop}
    {e : CompileError} (h : outcome x w = (.error e, w₁)) (hbad : bad e w₁) :
    Leads x w good bad := by
  unfold Leads
  rw [h]
  exact hbad

variable {good : β → Workspace → Prop} {bad : CompileError → Workspace → Prop}

theorem Leads.bind_ok {a : α} (h : outcome x w = (.ok a, w₁)) (hf : Leads (f a) w₁ good bad) :
    Leads (x >>= f) w good bad := by
  unfold Leads
  rw [outcome_bind_ok h]
  exact hf

theorem Leads.bind (h : Leads x w (fun a w₁ => Leads (f a) w₁ good bad) bad) :
    Leads (x >>= f) w good bad := by
  unfold Leads at h
  split at h
  · rename_i a w₁ ha
    exact .bind_ok ha h
  · rename_i e w₁ he
    exact .of_error (outcome_bind_error he) h

/-- Work that neither touches the pipeline nor blames the stage. -/
theorem Leads.bind_quiet (hkeeps : Keeps Workspace.pipeline x)
    (hblames : Blames CompileError.IsInOrder x)
    (hgood : ∀ a files, outcome x w = (.ok a, ⟨w.pipeline, files⟩) →
      Leads (f a) ⟨w.pipeline, files⟩ good bad)
    (hbad : ∀ e files, e.IsInOrder → bad e ⟨w.pipeline, files⟩) :
    Leads (x >>= f) w good bad := by
  have hsame := hkeeps w
  rcases h : outcome x w with ⟨e | a, ⟨p, files⟩⟩ <;> rw [h] at hsame <;> obtain rfl := hsame
  · exact .of_error (outcome_bind_error h) (hbad e files (hblames w e (congrArg Prod.fst h)))
  · exact .bind_ok h (hgood a files h)

end Step

open Step

namespace Pipeline

/-! ## Calls -/

/-- One of the four steps. -/
inductive Call where
  | canonicalize
  | classify
  | synthesize
  | write
  deriving DecidableEq, Repr

namespace Call

def name : Call → String
  | canonicalize => "canonicalize"
  | classify => "classify"
  | synthesize => "synthesize"
  | write => "write"

/-- The stage at which a step is the next one. -/
def expected : Call → Stage
  | canonicalize => .start
  | classify => .canonicalized
  | synthesize => .classified
  | write => .synthesized

/-- The step itself, whatever it gives. -/
def perform : Call → Step Unit
  | canonicalize => Pipeline.canonicalize
  | classify => do
    let _ ← Pipeline.classify
    return
  | synthesize => do
    let _ ← Pipeline.synthesize
    return
  | write => do
    let _ ← Pipeline.write
    return

end Call

/-- A pipeline that some calls lead to; the files may have changed before each of them. -/
inductive Reachable : Pipeline → Prop
  | start {o : Options} {p : Pipeline} (h : ofOptions o = .ok p) : Reachable p
  | call {p : Pipeline} (h : Reachable p) (files : FileTree) (call : Call) :
      Reachable (outcome call.perform ⟨p, files⟩).2.pipeline

/-- What has been made is what the stage says has been made. -/
structure Fits (p : Pipeline) : Prop where
  declarations : p.declarations.isSome ↔ .canonicalized ≤ p.stage
  canonical : p.canonical.isSome ↔ .canonicalized ≤ p.stage
  canonicalPath : p.canonicalPath.isSome ↔ .canonicalized ≤ p.stage ∧ p.config.mode.translates
  registration : p.registration.isSome ↔ .classified ≤ p.stage
  artifacts : p.artifacts.isSome ↔ .synthesized ≤ p.stage
  written : p.written ≠ [] → p.stage = .written

/-- What a step that ends well does to a pipeline. -/
inductive Advances (p : Pipeline) : Call → Pipeline → Prop
  | translate (hmode : p.config.mode.translates) (input canonical : Document) (path : Path) :
      Advances p .canonicalize { p with
        canonical := some canonical, canonicalPath := some path, declarations := some input,
        stage := .canonicalized }
  | adopt (hmode : p.config.mode.translates = false) (input : Document) :
      Advances p .canonicalize { p with
        canonical := some input, declarations := some input, stage := .canonicalized }
  | classify (registry : Registry) (sum : Registration) :
      Advances p .classify { p with registry, registration := some sum, stage := .classified }
  | synthesize (artifacts : Artifacts) :
      Advances p .synthesize { p with artifacts := some artifacts, stage := .synthesized }
  | write (paths : List Path) :
      Advances p .write { p with written := paths, stage := .written }

/-- Registering the events of the statechart ends with an error. The names registered up to then
stay in the registry. -/
def Abandons (p : Pipeline) (files : FileTree) (e : CompileError) (p' : Pipeline) : Prop :=
  ∃ declarations canonical c, p.declarations = some declarations ∧ p.canonical = some canonical ∧
    outcome (classifier p.config declarations) ⟨p, files⟩ = (.ok c, ⟨p, files⟩) ∧
    (p.registry.populate c.classify (Event.ofStatechart canonical)).value =
      (.error e, p'.registry) ∧
    p' = { p with registry := p'.registry }

/-- What a step that fails at its own stage does to a pipeline. -/
def Fails (p : Pipeline) (files : FileTree) (call : Call) (e : CompileError) (p' : Pipeline) :
    Prop :=
  e.IsInOrder ∧ (p' = p ∨ call = .classify ∧ Abandons p files e p')

variable {w w' : Workspace} {p p' : Pipeline} {files : FileTree} {call : Call}

/-! ## The four steps -/

theorem outcome_require_of_stage (step : String) {stage : Stage}
    (h : w.pipeline.stage = stage) : outcome (require step stage) w = (.ok (), w) := by
  rw [outcome_require, if_pos h]

theorem keeps_writeCanonical (c : Canonical) (dir : Path) :
    Keeps Workspace.pipeline (c.write dir) :=
  .bind (.change _ _) fun _ => .bind (.change _ _) fun _ => .bind (.lift _) fun _ => .pure _

theorem leads_canonicalize (hstage : p.stage = .start) :
    Leads canonicalize ⟨p, files⟩ (fun _ w' => Advances p .canonicalize w'.pipeline)
      fun e w' => Fails p files .canonicalize e w'.pipeline := by
  refine .bind_ok (outcome_require_of_stage _ hstage) (.bind_ok outcome_get ?_)
  refine .bind_quiet (.bind (.readText _ _) fun _ => .ofCompile _) (readDocument_blames _)
    (fun input files _ => ?_) fun e files he => ⟨he, .inl rfl⟩
  dsimp only
  by_cases hmode : p.config.mode.translates
  · rw [if_pos hmode]
    refine .bind_quiet (.ofCompile _) (.ofCompile (Canonical.canonicalize_blames _))
      (fun canonical files _ => ?_) fun e files he => ⟨he, .inl rfl⟩
    refine .bind_quiet (keeps_writeCanonical _ _) (Canonical.write_blames _ _)
      (fun path files _ => ?_) fun e files he => ⟨he, .inl rfl⟩
    exact .bind_ok (outcome_update ..) (.of_ok (outcome_update ..)
      (.translate hmode input canonical.document path))
  · rw [if_neg hmode]
    refine .bind_ok (outcome_lift _) (.bind_ok (outcome_update ..) (.of_ok (outcome_update ..) ?_))
    exact .adopt (by simpa using hmode) input

/-- The registry is put in place however the round of registering ends. -/
theorem outcome_classify {declarations canonical : Document} {c : Classifier}
    (hstage : p.stage = .canonicalized) (hdeclarations : p.declarations = some declarations)
    (hcanonical : p.canonical = some canonical)
    (hc : outcome (classifier p.config declarations) ⟨p, files⟩ = (.ok c, ⟨p, files⟩)) :
    outcome classify ⟨p, files⟩ =
      match (p.registry.populate c.classify (Event.ofStatechart canonical)).value with
      | (.error e, registry) => (.error e, ⟨{ p with registry }, files⟩)
      | (.ok sum, registry) => (.ok sum,
          ⟨{ p with registry, registration := some sum, stage := .classified }, files⟩) := by
  refine (outcome_bind_ok (outcome_require_of_stage _ hstage)).trans ?_
  refine (outcome_bind_ok (outcome_made _ _ hdeclarations)).trans ?_
  refine (outcome_bind_ok (outcome_made _ _ hcanonical)).trans ?_
  refine (outcome_bind_ok outcome_get).trans ((outcome_bind_ok hc).trans ?_)
  refine (outcome_bind_ok (outcome_lift _)).trans ((outcome_bind_ok outcome_get).trans ?_)
  refine (outcome_bind_ok (outcome_lift _)).trans ((outcome_bind_ok (outcome_update ..)).trans ?_)
  change outcome (ofExcept (p.registry.populate c.classify (Event.ofStatechart canonical)).value.1
    >>= _) ⟨{ p with registry :=
      (p.registry.populate c.classify (Event.ofStatechart canonical)).value.2 }, files⟩ = _
  rcases (p.registry.populate c.classify (Event.ofStatechart canonical)).value
    with ⟨e | sum, registry⟩
  · exact outcome_bind_error (outcome_ofExcept _)
  · refine (outcome_bind_ok (outcome_ofExcept _)).trans ?_
    dsimp only
    split
    · exact (outcome_bind_ok (outcome_lift _)).trans (outcome_bind_ok (outcome_lift _))
    · exact outcome_bind_ok (outcome_lift _)

theorem leads_classify (hfits : p.Fits) (hstage : p.stage = .canonicalized) :
    Leads classify ⟨p, files⟩ (fun _ w' => Advances p .classify w'.pipeline)
      fun e w' => Fails p files .classify e w'.pipeline := by
  have hmade : Stage.canonicalized ≤ p.stage := hstage ▸ Nat.le_refl _
  obtain ⟨declarations, hdeclarations⟩ := Option.isSome_iff_exists.1 (hfits.declarations.2 hmade)
  obtain ⟨canonical, hcanonical⟩ := Option.isSome_iff_exists.1 (hfits.canonical.2 hmade)
  rcases hc : outcome (classifier p.config declarations) ⟨p, files⟩ with ⟨e | c, w₁⟩ <;>
    obtain rfl := (readsFiles_classifier _ _).keeps.eq hc
  · refine .bind_ok (outcome_require_of_stage _ hstage) (.bind_ok (outcome_made _ _ hdeclarations)
      (.bind_ok (outcome_made _ _ hcanonical) (.bind_ok outcome_get ?_)))
    exact .of_error (outcome_bind_error hc)
      ⟨classifier_blames _ _ _ _ (congrArg Prod.fst hc), .inl rfl⟩
  · have houtcome := outcome_classify hstage hdeclarations hcanonical hc
    rcases hpopulate : (p.registry.populate c.classify (Event.ofStatechart canonical)).value
      with ⟨e | sum, registry⟩ <;> rw [hpopulate] at houtcome
    · exact .of_error houtcome ⟨Registry.isInOrder_of_populate hpopulate,
        .inr ⟨rfl, declarations, canonical, c, hdeclarations, hcanonical, hc, hpopulate, rfl⟩⟩
    · exact .of_ok houtcome (.classify registry sum)

theorem leads_synthesize (hfits : p.Fits) (hstage : p.stage = .classified) :
    Leads synthesize ⟨p, files⟩ (fun _ w' => Advances p .synthesize w'.pipeline)
      fun e w' => Fails p files .synthesize e w'.pipeline := by
  have hmade : Stage.canonicalized ≤ p.stage := by rw [hstage]; decide
  obtain ⟨canonical, hcanonical⟩ := Option.isSome_iff_exists.1 (hfits.canonical.2 hmade)
  refine .bind_ok (outcome_require_of_stage _ hstage) (.bind_ok (outcome_made _ _ hcanonical) ?_)
  split
  · refine .bind_quiet (.ofExcept _) (.ofExcept (SkillNames.ofRoot_blames _))
      (fun names files _ => .bind_ok outcome_get ?_) fun e files he => ⟨he, .inl rfl⟩
    refine .bind_quiet (ArtifactTexts.keeps_load _ _) (ArtifactTexts.load_blames _ _)
      (fun templates files _ => ?_) fun e files he => ⟨he, .inl rfl⟩
    exact .bind_ok (outcome_lift _) (.bind_ok (outcome_update ..) (.of_ok rfl (.synthesize _)))
  · exact .of_error rfl ⟨trivial, .inl rfl⟩

theorem leads_write (hfits : p.Fits) (hstage : p.stage = .synthesized) :
    Leads write ⟨p, files⟩ (fun _ w' => Advances p .write w'.pipeline)
      fun e w' => Fails p files .write e w'.pipeline := by
  have hmade : Stage.synthesized ≤ p.stage := hstage ▸ Nat.le_refl _
  obtain ⟨artifacts, hartifacts⟩ := Option.isSome_iff_exists.1 (hfits.artifacts.2 hmade)
  refine .bind_ok (outcome_require_of_stage _ hstage) (.bind_ok (outcome_made _ _ hartifacts)
    (.bind_ok outcome_get ?_))
  refine .bind_quiet (artifacts.keeps_write _) (artifacts.write_blames _)
    (fun paths files _ => ?_) fun e files he => ⟨he, .inl rfl⟩
  exact .bind_ok (outcome_update ..) (.of_ok rfl (.write paths))

/-! ## Any call -/

/-- At its own stage a step takes the pipeline one stage further, or fails. -/
theorem leads_perform (hfits : p.Fits) (hstage : p.stage = call.expected) :
    Leads call.perform ⟨p, files⟩ (fun _ w' => Advances p call w'.pipeline)
      fun e w' => Fails p files call e w'.pipeline := by
  have hreturn : ∀ {α : Type} {x : Step α} {call : Call},
      Leads x ⟨p, files⟩ (fun _ w' => Advances p call w'.pipeline)
        (fun e w' => Fails p files call e w'.pipeline) →
      Leads (do let _ ← x; return) ⟨p, files⟩ (fun _ w' => Advances p call w'.pipeline)
        fun e w' => Fails p files call e w'.pipeline := fun h => .bind h
  cases call with
  | canonicalize => exact leads_canonicalize hstage
  | classify => exact hreturn (leads_classify hfits hstage)
  | synthesize => exact hreturn (leads_synthesize hfits hstage)
  | write => exact hreturn (leads_write hfits hstage)

/-- At any other stage a step is refused. -/
theorem outcome_perform_of_ne (hstage : p.stage ≠ call.expected) :
    outcome call.perform ⟨p, files⟩ =
      (.error (.invalidState call.name call.expected.name p.stage.name), ⟨p, files⟩) := by
  have hrequire : outcome (require call.name call.expected) ⟨p, files⟩ =
      (.error (.invalidState call.name call.expected.name p.stage.name), ⟨p, files⟩) := by
    rw [outcome_require, if_neg hstage]
  cases call with
  | canonicalize => exact outcome_bind_error hrequire
  | classify => exact outcome_bind_error (outcome_bind_error hrequire)
  | synthesize => exact outcome_bind_error (outcome_bind_error hrequire)
  | write => exact outcome_bind_error (outcome_bind_error hrequire)

/-- How a call ends: refused at another stage, one stage further, or failed. -/
inductive Ends (p : Pipeline) (files : FileTree) (call : Call) :
    Except CompileError Unit × Workspace → Prop
  | refused (hstage : p.stage ≠ call.expected) :
      Ends p files call
        (.error (.invalidState call.name call.expected.name p.stage.name), ⟨p, files⟩)
  | advanced (hstage : p.stage = call.expected) {w' : Workspace}
      (h : Advances p call w'.pipeline) : Ends p files call (.ok (), w')
  | failed (hstage : p.stage = call.expected) {e : CompileError} {w' : Workspace}
      (h : Fails p files call e w'.pipeline) : Ends p files call (.error e, w')

theorem Fits.ends (hfits : p.Fits) (files : FileTree) (call : Call) :
    Ends p files call (outcome call.perform ⟨p, files⟩) := by
  by_cases hstage : p.stage = call.expected
  · have h := @leads_perform p files call hfits hstage
    unfold Leads at h
    split at h
    · rename_i houtcome
      rw [houtcome]
      exact .advanced hstage h
    · rename_i houtcome
      rw [houtcome]
      exact .failed hstage h
  · rw [outcome_perform_of_ne hstage]
    exact .refused hstage

/-! ## Every pipeline that can be reached -/

theorem Advances.rank_stage (h : Advances p call p') :
    p'.stage.rank = call.expected.rank + 1 := by
  cases h <;> rfl

theorem Fails.exists_eq {e : CompileError} (h : Fails p files call e p') :
    ∃ registry, p' = { p with registry } := by
  rcases h.2 with rfl | ⟨-, _, _, _, -, -, -, -, heq⟩
  · exact ⟨_, rfl⟩
  · exact ⟨_, heq⟩

theorem Fits.advance (hfits : p.Fits) (hstage : p.stage = call.expected)
    (h : Advances p call p') : p'.Fits := by
  -- What the step has not made was there before or is not due yet.
  have hdue : ∀ a, a ≠ p'.stage → (a ≤ p.stage ↔ a ≤ p'.stage) := fun a =>
    Stage.le_iff_of_rank (by rw [h.rank_stage, hstage])
  have hwritten : p.written ≠ [] → call.expected = .written := fun hne =>
    hstage.symm.trans (hfits.written hne)
  cases h with
  | translate hmode =>
    exact ⟨iff_of_true rfl (Nat.le_refl _), iff_of_true rfl (Nat.le_refl _),
      iff_of_true rfl ⟨Nat.le_refl _, hmode⟩, hfits.registration.trans (hdue _ nofun),
      hfits.artifacts.trans (hdue _ nofun), fun hne => nomatch hwritten hne⟩
  | adopt hmode =>
    refine ⟨iff_of_true rfl (Nat.le_refl _), iff_of_true rfl (Nat.le_refl _),
      hfits.canonicalPath.trans (and_congr_left fun htranslates => ?_),
      hfits.registration.trans (hdue _ nofun), hfits.artifacts.trans (hdue _ nofun),
      fun hne => nomatch hwritten hne⟩
    exact nomatch hmode.symm.trans htranslates
  | classify =>
    exact ⟨hfits.declarations.trans (hdue _ nofun), hfits.canonical.trans (hdue _ nofun),
      hfits.canonicalPath.trans (and_congr_left fun _ => hdue _ nofun),
      iff_of_true rfl (Nat.le_refl _), hfits.artifacts.trans (hdue _ nofun),
      fun hne => nomatch hwritten hne⟩
  | synthesize =>
    exact ⟨hfits.declarations.trans (hdue _ nofun), hfits.canonical.trans (hdue _ nofun),
      hfits.canonicalPath.trans (and_congr_left fun _ => hdue _ nofun),
      hfits.registration.trans (hdue _ nofun), iff_of_true rfl (Nat.le_refl _),
      fun hne => nomatch hwritten hne⟩
  | write =>
    exact ⟨hfits.declarations.trans (hdue _ nofun), hfits.canonical.trans (hdue _ nofun),
      hfits.canonicalPath.trans (and_congr_left fun _ => hdue _ nofun),
      hfits.registration.trans (hdue _ nofun), hfits.artifacts.trans (hdue _ nofun),
      fun _ => rfl⟩

/-- The stage does not tell what is registered. -/
theorem Fits.withRegistry (hfits : p.Fits) (registry : Registry) :
    Fits { p with registry } :=
  ⟨hfits.declarations, hfits.canonical, hfits.canonicalPath, hfits.registration, hfits.artifacts,
    hfits.written⟩

/-- A run that has not begun has made nothing. -/
theorem eq_of_ofOptions {o : Options} (h : ofOptions o = .ok p) : p = { config := p.config } := by
  unfold ofOptions at h
  cases hconfig : o.config with
  | error e =>
    rw [hconfig] at h
    cases h
  | ok config =>
    rw [hconfig] at h
    cases h
    rfl

theorem fits_ofOptions {o : Options} (h : ofOptions o = .ok p) : p.Fits := by
  rw [eq_of_ofOptions h]
  constructor <;> dsimp only
  · decide
  · decide
  · exact iff_of_false nofun fun h => absurd h.1 (by decide)
  · decide
  · decide
  · exact fun h => absurd rfl h

theorem Fits.perform (hfits : p.Fits) (files : FileTree) (call : Call) :
    (outcome call.perform ⟨p, files⟩).2.pipeline.Fits := by
  rcases outcome call.perform ⟨p, files⟩, hfits.ends files call with
    ⟨_, _ | ⟨hstage, h⟩ | ⟨-, h⟩⟩
  · exact hfits
  · exact hfits.advance hstage h
  · obtain ⟨registry, heq⟩ := h.exists_eq
    rw [heq]
    exact hfits.withRegistry registry

theorem Reachable.fits (h : Reachable p) : p.Fits := by
  induction h with
  | start h => exact fits_ofOptions h
  | call _ files call ih => exact ih.perform files call

/-- In every pipeline that can be reached, what has been made is what the stage says. A step that
is not the next one is refused and changes nothing. The next one is never told that it is not; it
takes the pipeline one stage further, or leaves it at its stage with an error. -/
theorem reachable_keeps_stage (h : Reachable p) :
    p.Fits ∧ ∀ (files : FileTree) (call : Call),
      (p.stage ≠ call.expected → outcome call.perform ⟨p, files⟩ =
        (.error (.invalidState call.name call.expected.name p.stage.name), ⟨p, files⟩)) ∧
      (p.stage = call.expected → ∀ step expected found,
        (outcome call.perform ⟨p, files⟩).1 ≠ .error (.invalidState step expected found)) ∧
      (outcome call.perform ⟨p, files⟩).2.pipeline.stage.rank =
        p.stage.rank + if (outcome call.perform ⟨p, files⟩).1.isOk then 1 else 0 := by
  refine ⟨h.fits, fun files call => ⟨outcome_perform_of_ne, ?_⟩⟩
  rcases outcome call.perform ⟨p, files⟩, h.fits.ends files call with
    ⟨_, hstage | ⟨hstage, hadvances⟩ | ⟨hstage, hfails⟩⟩
  · exact ⟨fun h => absurd h hstage, rfl⟩
  · refine ⟨nofun, ?_⟩
    rw [hadvances.rank_stage, hstage]
    rfl
  · refine ⟨fun _ step expected found herror => ?_, ?_⟩
    · cases herror
      exact hfails.1
    · obtain ⟨registry, heq⟩ := hfails.exists_eq
      rw [heq]
      rfl

/-- A skill that sends an event whose publisher is declared without a name. -/
def faultyFiles : FileTree where
  home := []
  nodes := [(["i"], .file
    "<a><ros_topic_publisher topic=\"/A/f\"/><send event=\"A.f\"/></a>".toUTF8)]

def faultyOptions : Options where
  input := some "i"
  outputDir := some "o"
  mode := .generateOnly

/-- The pipeline that has taken the skill for canonical. -/
def faultyPipeline : Pipeline :=
  let config := ⟨"i", "o", defaultTemplateDir, none, none, none, .generateOnly, false⟩
  (outcome Call.canonicalize.perform ⟨{ config }, faultyFiles⟩).2.pipeline

theorem reachable_faultyPipeline : Reachable faultyPipeline :=
  .call (.start (o := faultyOptions) rfl) faultyFiles .canonicalize

theorem reachable_keeps_stage_faulty :
    Reachable faultyPipeline ∧ faultyPipeline.stage = .canonicalized ∧
    faultyPipeline.canonicalPath = none ∧
    outcome Call.write.perform ⟨faultyPipeline, faultyFiles⟩ =
      (.error (.invalidState "write" "synthesized" "canonicalized"),
        ⟨faultyPipeline, faultyFiles⟩) ∧
    (outcome Call.classify.perform ⟨faultyPipeline, faultyFiles⟩).1 =
      .error (.missingAttribute "ros_topic_publisher" "name") ∧
    (outcome Call.classify.perform ⟨faultyPipeline, faultyFiles⟩).2.pipeline.stage.rank = 1 := by
  have hevaluated : faultyPipeline.stage = .canonicalized ∧
      faultyPipeline.config.mode = .generateOnly ∧
      (outcome Call.classify.perform ⟨faultyPipeline, faultyFiles⟩).1 =
        .error (.missingAttribute "ros_topic_publisher" "name") := by decide +kernel
  obtain ⟨hstage, hmode, hfailed⟩ := hevaluated
  obtain ⟨hfits, hcalls⟩ := reachable_keeps_stage reachable_faultyPipeline
  have hpath : faultyPipeline.canonicalPath = none := by
    rw [← Option.not_isSome_iff_eq_none, hfits.canonicalPath, hmode]
    exact fun h => absurd h.2 (by decide)
  have hrefused := (hcalls faultyFiles .write).1 (by rw [hstage]; decide)
  have hrank := (hcalls faultyFiles .classify).2.2
  rw [hstage] at hrefused
  rw [hstage, hfailed] at hrank
  exact ⟨reachable_faultyPipeline, hstage, hpath, hrefused, hfailed, hrank⟩

end Pipeline

end SkillCompiler
