import SkillCompiler.Proofs.File.Outside
import SkillCompiler.Proofs.Pipeline.Stage
import SkillCompiler.Proofs.Skill.ClassName

/-!
# What a run may write

All that a pipeline writes is named after the class of its skill, whatever is called and however the
calls end. A class that does not climb out keeps every file below the output directory, in all modes
and also if a call fails; a class that does climb out leads away from some output directory
(`run_writes_below`).
-/

namespace SkillCompiler

open SkillCompiler.Path

/-! ## What steps write -/

namespace Step

variable {α β : Type} {x : Step α} {f : α → Step β} {w : Workspace}

/-- What a step gives if it ends well. -/
def Gives (P : α → Prop) (x : Step α) : Prop :=
  ∀ w a w', outcome x w = (.ok a, w') → P a

theorem Gives.pure {P : α → Prop} {a : α} (h : P a) : Gives P (Pure.pure a) := by
  rintro w _ w' ⟨⟩
  exact h

theorem Gives.bind_of {Q : α → Prop} {P : β → Prop} (hx : Gives Q x)
    (h : ∀ a, Q a → Gives P (f a)) : Gives P (x >>= f) := by
  intro w b w' hb
  obtain ⟨a, w₁, ha, hb⟩ := exists_of_outcome_bind hb
  exact h a (hx w a w₁ ha) w₁ b w' hb

theorem Gives.bind {P : β → Prop} (h : ∀ a, Gives P (f a)) : Gives P (x >>= f) :=
  .bind_of (Q := fun _ => True) (fun _ _ _ _ => trivial) fun a _ => h a

theorem Gives.mapM {P : β → Prop} (h : ∀ a, Gives P (f a)) (l : List α) :
    Gives (fun bs => ∀ b ∈ bs, P b) (l.mapM f) := by
  intro w bs w' hbs
  refine mapM_invariant (fun _ bs _ => ∀ b ∈ bs, P b) (fun {as bs a b w w'} hall hb => ?_)
    (by simp) hbs
  rw [List.forall_mem_append, List.forall_mem_singleton]
  exact ⟨hall, h a w b w' hb⟩

/-- The files outside a directory, as part of a workspace. -/
def outside (dir : Path) (w : Workspace) : Location × (Location → Option ByteArray) :=
  w.files.outside dir

/-- The same, if there are no links. -/
noncomputable def apart (dir : Path) (w : Workspace) :
    Option (Location × (Location → Option ByteArray)) :=
  w.files.apart dir

theorem keeps_change {dir : Path} {action : FileAction α}
    (h : FileAction.Keeps (FileTree.apart dir) action) (blame : FileFault → CompileError) :
    Keeps (apart dir) (change blame action) := fun w => h w.files

theorem Leads.bind_of {good' : α → Workspace → Prop} {bad' : CompileError → Workspace → Prop}
    {good : β → Workspace → Prop} {bad : CompileError → Workspace → Prop}
    (hx : Leads x w good' bad') (hgood : ∀ a w', good' a w' → Leads (f a) w' good bad)
    (hbad : ∀ e w', bad' e w' → bad e w') : Leads (x >>= f) w good bad := by
  refine .bind ?_
  unfold Leads at hx ⊢
  split at hx
  · exact hgood _ _ hx
  · exact hbad _ _ hx

theorem leads_change (blame : FileFault → CompileError) (action : FileAction α) (w : Workspace) :
    Leads (change blame action) w
      (fun a w' => action.run w.files = (.ok a, w'.files) ∧ w'.pipeline = w.pipeline)
      fun _ w' => ∃ fault, action.run w.files = (.error fault, w'.files) ∧
        w'.pipeline = w.pipeline := by
  have houtcome := outcome_change (w := w) blame action
  rcases hrun : action.run w.files with ⟨fault | a, files⟩ <;> rw [hrun] at houtcome
  · exact .of_error houtcome ⟨fault, rfl, rfl⟩
  · exact .of_ok houtcome ⟨rfl, rfl⟩

/-- Work that changes nothing. -/
theorem Leads.bind_reads {good : β → Workspace → Prop} {bad : CompileError → Workspace → Prop}
    (hkeeps : Keeps id x) (hgood : ∀ a, outcome x w = (.ok a, w) → Leads (f a) w good bad)
    (hbad : ∀ e, bad e w) : Leads (x >>= f) w good bad := by
  rcases h : outcome x w with ⟨e | a, w₁⟩ <;> obtain rfl := hkeeps.eq h
  · exact .of_error (outcome_bind_error h) (hbad e)
  · exact .bind_ok h (hgood a h)

theorem Leads.snd {P : Workspace → Prop} (h : Leads x w (fun _ => P) fun _ => P) :
    P (outcome x w).2 := by
  unfold Leads at h
  split at h <;> rename_i houtcome <;> rw [houtcome] <;> exact h

theorem snd_outcome_discard (x : Step α) :
    (outcome (do let _ ← x; return) w).2 = (outcome x w).2 := by
  rcases h : outcome x w with ⟨e | a, w'⟩
  · rw [outcome_bind_error h]
  · rw [outcome_bind_ok h]
    rfl

end Step

open Step

namespace Artifacts

variable (a : Artifacts) (dir : Path)

theorem gives_write :
    Gives (fun paths => ∀ path ∈ paths, ∃ kind : ArtifactKind,
      path = dir.join (kind.outputPath a.names)) (a.write dir) := by
  refine .bind_of (.mapM (fun (kind, text) => ?_) _) fun paths hpaths => .bind fun _ => .pure hpaths
  unfold writeOne
  dsimp only
  split
  · exact .bind fun _ => .bind fun _ => .bind fun _ => .pure ⟨kind, rfl⟩
  · exact .bind fun _ => .bind fun _ => .pure ⟨kind, rfl⟩

theorem keeps_apart_write (h : IsConfined a.names.className) :
    Keeps (apart dir) (a.write dir) := by
  refine .bind (.mapM (fun (kind, text) => ?_) _) fun paths => .bind (.lift _) fun _ => .pure _
  have htext := keeps_change (FileAction.keeps_writeText (isBelow_outputPath h dir kind) text)
  unfold writeOne
  dsimp only
  split
  · exact .bind (keeps_change (FileAction.keeps_makeDirectories dir _) _) fun _ =>
      .bind (htext _) fun _ => .bind (.lift _) fun _ => .pure _
  · exact .bind (htext _) fun _ => .bind (.lift _) fun _ => .pure _

theorem leads_write (w : Workspace) :
    Leads (a.write dir) w
      (fun paths w' => (∀ path ∈ paths, ∃ kind : ArtifactKind,
          path = dir.join (kind.outputPath a.names)) ∧
        w'.pipeline = w.pipeline ∧
        (IsConfined a.names.className → apart dir w' = apart dir w))
      fun _ w' => w'.pipeline = w.pipeline ∧
        (IsConfined a.names.className → apart dir w' = apart dir w) := by
  have hpipeline := a.keeps_write dir w
  have hapart := fun h => a.keeps_apart_write dir h w
  rcases h : outcome (a.write dir) w with ⟨e | paths, w'⟩ <;> rw [h] at hpipeline hapart
  · exact .of_error h ⟨hpipeline, hapart⟩
  · exact .of_ok h ⟨a.gives_write dir w paths w' h, hpipeline, hapart⟩

end Artifacts

/-- A statechart that cannot be written leaves all files as they are, wherever it was to go. -/
theorem Canonical.leads_write (c : Canonical) (dir out : Path) (w : Workspace) :
    Leads (c.write dir) w
      (fun path w' => path = c.pathIn dir ∧ w'.pipeline = w.pipeline ∧
        (IsBelow out path → apart out w' = apart out w))
      fun _ w' => w'.pipeline = w.pipeline ∧ apart out w' = apart out w := by
  have hdirectories := FileAction.keeps_makeDirectories out dir w.files
  unfold Canonical.write
  refine .bind_of (leads_change _ _ w) (fun _ w₁ hfirst => ?_) fun _ w₁ hfirst => ?_
  · obtain ⟨hfirst, hpipeline⟩ := hfirst
    rw [hfirst] at hdirectories
    refine .bind_of (leads_change _ _ w₁) (fun _ w₂ hsecond => ?_) fun _ w₂ hsecond => ?_
    · obtain ⟨hsecond, hpipeline'⟩ := hsecond
      refine .bind_ok (outcome_lift _) (.of_ok rfl ⟨rfl, hpipeline'.trans hpipeline, fun h => ?_⟩)
      have htext := FileAction.keeps_writeText h c.document.print w₁.files
      rw [hsecond] at htext
      exact htext.trans hdirectories
    · obtain ⟨fault, hsecond, hpipeline'⟩ := hsecond
      refine ⟨hpipeline'.trans hpipeline, ?_⟩
      rcases FileAction.run_writeBytes (c.pathIn dir) c.document.print.toUTF8 w₁.files with
        ⟨fault', hrun⟩ | ⟨location, -, -, -, hrun⟩
      · have hsame : w₂.files = w₁.files := congrArg Prod.snd (hsecond.symm.trans hrun)
        unfold apart
        rw [hsame]
        exact hdirectories
      · cases hsecond.symm.trans hrun
  · obtain ⟨fault, hfirst, hpipeline⟩ := hfirst
    rw [hfirst] at hdirectories
    exact ⟨hpipeline, hdirectories⟩

namespace Pipeline

/-! ## Paths of a pipeline -/

/-- The class of the skill that a pipeline works on, once it is read. -/
def class? (p : Pipeline) : Option String := p.declarations.bind Document.skillClass?

/-- Where a pipeline has written its files. -/
def paths (p : Pipeline) : List Path := p.canonicalPath.toList ++ p.written

/-- All that a pipeline has made is named after the class of its skill. -/
structure IsNamed (p : Pipeline) : Prop where
  canonical : ∀ doc, p.canonical = some doc → doc.skillClass? = p.class?
  canonicalPath : ∀ path, p.canonicalPath = some path → ∃ names : SkillNames,
    p.class? = some names.className ∧
      path = (p.config.outputDir.join "src").join names.canonicalFile
  artifacts : ∀ a, p.artifacts = some a → p.class? = some a.names.className
  written : ∀ path ∈ p.written, ∃ (names : SkillNames) (kind : ArtifactKind),
    p.class? = some names.className ∧ path = p.config.outputDir.join (kind.outputPath names)

theorem IsNamed.isBelow {p : Pipeline} (h : p.IsNamed)
    (hconfined : ∀ c, p.class? = some c → IsConfined c) :
    ∀ path ∈ p.paths, IsBelow p.config.outputDir path := by
  intro path hpath
  rcases List.mem_append.1 hpath with hpath | hpath
  · obtain ⟨names, hclass, rfl⟩ := h.canonicalPath path (by simpa using hpath)
    exact (isConfined_className_iff names).1 (hconfined _ hclass) _
  · obtain ⟨names, kind, hclass, rfl⟩ := h.written path hpath
    exact isBelow_outputPath (hconfined _ hclass) _ kind

/-- What a call does to a workspace. -/
structure Respects (w w' : Workspace) : Prop where
  config : w'.pipeline.config = w.pipeline.config
  class? : ∀ c, w.pipeline.class? = some c → w'.pipeline.class? = some c
  isNamed : w'.pipeline.IsNamed
  apart : (∀ c, w'.pipeline.class? = some c → IsConfined c) →
    Step.apart w.pipeline.config.outputDir w' = Step.apart w.pipeline.config.outputDir w

theorem Respects.refl {w : Workspace} (h : w.pipeline.IsNamed) : Respects w w :=
  ⟨rfl, fun _ hc => hc, h, fun _ => rfl⟩

variable {p : Pipeline} {files : FileTree} {w : Workspace}

theorem keeps_readDocument (path : Path) : Keeps id (readDocument path) :=
  .bind (.readText _ _) fun _ => .ofCompile _

theorem exists_of_readDocument {path : Path} {doc : Document}
    (h : outcome (readDocument path) w = (.ok doc, w)) :
    ∃ text, w.files.readText path = .ok text ∧ Document.parse text = .ok doc := by
  obtain ⟨text, w₁, htext, h⟩ := exists_of_outcome_bind h
  rw [outcome_readText, Prod.mk.injEq] at htext
  rw [outcome_ofCompile, Prod.mk.injEq] at h
  obtain ⟨parsed, hparsed, hload⟩ := Attempt.exists_of_result_bind h.1
  cases hload
  exact ⟨text, eq_ok_of_mapError_eq_ok htext.1, Canonical.eq_ok_of_result_document hparsed⟩

theorem respects_canonicalize (hfits : p.Fits) (hnamed : p.IsNamed) (hstage : p.stage = .start) :
    Leads canonicalize ⟨p, files⟩ (fun _ => Respects ⟨p, files⟩) fun _ => Respects ⟨p, files⟩ := by
  -- Nothing has been made yet.
  have hdue : ∀ {stage : Stage}, stage ≠ .start → ¬ stage ≤ p.stage := by
    intro stage
    rw [hstage]
    cases stage <;> decide
  have hdeclarations : p.declarations = none := by simpa [hdue] using hfits.declarations
  have hpath : p.canonicalPath = none := by simpa [hdue] using hfits.canonicalPath
  have hartifacts : p.artifacts = none := by simpa [hdue] using hfits.artifacts
  have hwritten : p.written = [] := by simpa [hstage] using hfits.written
  have hclass? : p.class? = none := by rw [class?, hdeclarations, Option.bind_none]
  refine .bind_ok (outcome_require_of_stage _ hstage) (.bind_ok outcome_get ?_)
  refine .bind_reads (keeps_readDocument _) (fun input hinput => ?_) fun _ => .refl hnamed
  obtain ⟨text, -, hparse⟩ := exists_of_readDocument hinput
  dsimp only
  by_cases hmode : p.config.mode.translates
  · rw [if_pos hmode]
    refine .bind_reads (.ofCompile _) (fun c hc => ?_) fun _ => .refl hnamed
    rw [outcome_ofCompile, Prod.mk.injEq] at hc
    obtain ⟨hsource, hclass⟩ := Canonical.skillClass?_of_canonicalize hparse hc.1
    refine .bind_of (Canonical.leads_write c _ p.config.outputDir _) ?_ ?_
    · rintro path ⟨_, files₁⟩ ⟨rfl, rfl, hapart⟩
      refine .bind_ok (outcome_update ..) (.of_ok (outcome_update ..) ?_)
      refine ⟨rfl, fun _ h => (nomatch hclass?.symm.trans h), ⟨?_, ?_, ?_, ?_⟩, fun hconfined => ?_⟩
      · rintro doc ⟨⟩
        exact hclass.trans hsource.symm
      · rintro path ⟨⟩
        exact ⟨c.names, hsource, rfl⟩
      · exact fun a h => nomatch hartifacts.symm.trans h
      · exact fun path h => absurd (hwritten ▸ h) List.not_mem_nil
      · exact hapart ((isConfined_className_iff c.names).1 (hconfined _ hsource) _)
    · rintro e ⟨_, files₁⟩ ⟨rfl, hapart⟩
      exact ⟨rfl, fun _ h => h, hnamed, fun _ => hapart⟩
  · rw [if_neg hmode]
    refine .bind_ok (outcome_lift _) (.bind_ok (outcome_update ..) (.of_ok (outcome_update ..) ?_))
    refine ⟨rfl, fun _ h => (nomatch hclass?.symm.trans h), ⟨?_, ?_, ?_, ?_⟩, fun _ => rfl⟩
    · rintro doc ⟨⟩
      rfl
    · exact fun path h => nomatch hpath.symm.trans h
    · exact fun a h => nomatch hartifacts.symm.trans h
    · exact fun path h => absurd (hwritten ▸ h) List.not_mem_nil

theorem keeps_files_classify : Keeps Workspace.files classify := by
  refine .bind (.require _ _) fun _ => .bind (.made _ _ _) fun _ =>
    .bind (.made _ _ _) fun _ => ?_
  refine .bind .get fun _ => .bind (readsFiles_classifier _ _).keeps fun _ => ?_
  refine .bind (.lift _) fun _ => .bind .get fun _ => .bind (.lift _) fun _ => ?_
  refine .bind (.update fun _ => rfl) fun _ => .bind (.ofExcept _) fun sum => ?_
  have hend : Keeps Workspace.files (do
      note (.info .pipeline "classified events" [("registered", toString sum.registered),
        ("duplicates", toString sum.duplicates), ("reserved", toString sum.reserved)])
      update ({ · with registration := some sum, stage := .classified })
      return sum) :=
    .bind (.lift _) fun _ => .bind (.update fun _ => rfl) fun _ => .pure _
  dsimp only
  split
  · exact .bind (.lift _) fun _ => hend
  · exact hend

theorem respects_classify (hfits : p.Fits) (hnamed : p.IsNamed)
    (hstage : p.stage = .canonicalized) :
    Leads classify ⟨p, files⟩ (fun _ => Respects ⟨p, files⟩) fun _ => Respects ⟨p, files⟩ := by
  have hfiles := keeps_files_classify ⟨p, files⟩
  have hleads := @leads_classify p files hfits hstage
  unfold Leads at hleads ⊢
  generalize outcome classify ⟨p, files⟩ = ended at hfiles hleads
  rcases ended with ⟨e | sum, ⟨p', _⟩⟩ <;> obtain rfl := hfiles
  · obtain ⟨registry, rfl⟩ := hleads.exists_eq
    exact ⟨rfl, fun _ h => h, ⟨hnamed.1, hnamed.2, hnamed.3, hnamed.4⟩, fun _ => rfl⟩
  · cases hleads with
    | classify registry sum =>
      exact ⟨rfl, fun _ h => h, ⟨hnamed.1, hnamed.2, hnamed.3, hnamed.4⟩, fun _ => rfl⟩

theorem respects_synthesize (hfits : p.Fits) (hnamed : p.IsNamed)
    (hstage : p.stage = .classified) :
    Leads synthesize ⟨p, files⟩ (fun _ => Respects ⟨p, files⟩) fun _ => Respects ⟨p, files⟩ := by
  have hmade : Stage.canonicalized ≤ p.stage := by rw [hstage]; decide
  obtain ⟨canonical, hcanonical⟩ := Option.isSome_iff_exists.1 (hfits.canonical.2 hmade)
  refine .bind_ok (outcome_require_of_stage _ hstage) (.bind_ok (outcome_made _ _ hcanonical) ?_)
  split
  · rename_i root hroot
    refine .bind_reads (.ofExcept _) (fun names hnames => ?_) fun _ => .refl hnamed
    rw [outcome_ofExcept, Prod.mk.injEq] at hnames
    have hclass : p.class? = some names.className := by
      rw [← hnamed.canonical canonical hcanonical, Document.skillClass?, hroot]
      exact SkillNames.class?_of_ofRoot hnames.1
    refine .bind_ok outcome_get (.bind_reads (ArtifactTexts.keeps_load _ _) (fun templates _ => ?_)
      fun _ => .refl hnamed)
    refine .bind_ok (outcome_lift _) (.bind_ok (outcome_update ..) (.of_ok rfl ?_))
    refine ⟨rfl, fun _ h => h, ⟨hnamed.1, hnamed.2, ?_, hnamed.4⟩, fun _ => rfl⟩
    rintro a ⟨⟩
    exact hclass
  · exact .of_error rfl (.refl hnamed)

theorem respects_write (hfits : p.Fits) (hnamed : p.IsNamed) (hstage : p.stage = .synthesized) :
    Leads write ⟨p, files⟩ (fun _ => Respects ⟨p, files⟩) fun _ => Respects ⟨p, files⟩ := by
  have hmade : Stage.synthesized ≤ p.stage := hstage ▸ Nat.le_refl _
  obtain ⟨a, ha⟩ := Option.isSome_iff_exists.1 (hfits.artifacts.2 hmade)
  have hclass := hnamed.artifacts a ha
  refine .bind_ok (outcome_require_of_stage _ hstage) (.bind_ok (outcome_made _ _ ha)
    (.bind_ok outcome_get ?_))
  refine .bind_of (a.leads_write _ _) ?_ ?_
  · rintro paths ⟨_, files₁⟩ ⟨hpaths, rfl, hapart⟩
    refine .bind_ok (outcome_update ..) (.of_ok rfl ?_)
    refine ⟨rfl, fun _ h => h, ⟨hnamed.1, hnamed.2, hnamed.3, fun path hpath => ?_⟩,
      fun hconfined => hapart (hconfined _ hclass)⟩
    obtain ⟨kind, rfl⟩ := hpaths path hpath
    exact ⟨a.names, kind, hclass, rfl⟩
  · rintro e ⟨_, files₁⟩ ⟨rfl, hapart⟩
    exact ⟨rfl, fun _ h => h, hnamed, fun hconfined => hapart (hconfined _ hclass)⟩

theorem respects_perform (hfits : p.Fits) (hnamed : p.IsNamed) (files : FileTree) (call : Call) :
    Respects ⟨p, files⟩ (outcome call.perform ⟨p, files⟩).2 := by
  by_cases hstage : p.stage = call.expected
  · cases call with
    | canonicalize => exact (respects_canonicalize hfits hnamed hstage).snd
    | classify =>
      rw [Call.perform, snd_outcome_discard]
      exact (respects_classify hfits hnamed hstage).snd
    | synthesize =>
      rw [Call.perform, snd_outcome_discard]
      exact (respects_synthesize hfits hnamed hstage).snd
    | write =>
      rw [Call.perform, snd_outcome_discard]
      exact (respects_write hfits hnamed hstage).snd
  · rw [outcome_perform_of_ne hstage]
    exact .refl hnamed

/-! ## Runs -/

/-- A workspace that some calls lead to. -/
inductive Reaches (w : Workspace) : Workspace → Prop
  | refl : Reaches w w
  | call {w' : Workspace} (h : Reaches w w') (call : Call) :
      Reaches w (outcome call.perform w').2

theorem Respects.trans {w₁ w₂ w₃ : Workspace} (h : Respects w₁ w₂) (h' : Respects w₂ w₃) :
    Respects w₁ w₃ := by
  refine ⟨h'.config.trans h.config, fun c hc => h'.class? c (h.class? c hc), h'.isNamed,
    fun hconfined => ?_⟩
  have hfirst := h.apart fun c hc => hconfined c (h'.class? c hc)
  have hsecond := h'.apart hconfined
  rw [h.config] at hsecond
  exact hsecond.trans hfirst

theorem Reaches.respects {w w' : Workspace} (hfits : w.pipeline.Fits)
    (hnamed : w.pipeline.IsNamed) (h : Reaches w w') : w'.pipeline.Fits ∧ Respects w w' := by
  induction h with
  | refl => exact ⟨hfits, .refl hnamed⟩
  | call h call ih =>
    rename_i w'
    exact ⟨ih.1.perform w'.files call,
      ih.2.trans (respects_perform ih.1 ih.2.isNamed w'.files call)⟩

theorem Reaches.trans {w₁ w₂ w₃ : Workspace} (h : Reaches w₁ w₂) (h' : Reaches w₂ w₃) :
    Reaches w₁ w₃ := by
  induction h' with
  | refl => exact h
  | call _ call ih => exact ih.call call

/-- Work made of calls. -/
def Follows {α : Type} (x : Step α) : Prop := ∀ w, Reaches w (outcome x w).2

theorem Follows.of_keeps {α : Type} {x : Step α} (h : Keeps id x) : Follows x := by
  intro w
  have hsame : (outcome x w).2 = w := h w
  rw [hsame]
  exact .refl

theorem Follows.of_perform {α : Type} {x : Step α} (call : Call)
    (h : ∀ w, (outcome call.perform w).2 = (outcome x w).2) : Follows x := by
  intro w
  rw [← h w]
  exact .call .refl call

theorem Follows.bind {α β : Type} {x : Step α} {f : α → Step β} (hx : Follows x)
    (hf : ∀ a, Follows (f a)) : Follows (x >>= f) := by
  intro w
  have hfirst := hx w
  rcases h : outcome x w with ⟨e | a, w₁⟩ <;> rw [h] at hfirst
  · rw [outcome_bind_error h]
    exact hfirst
  · rw [outcome_bind_ok h]
    exact hfirst.trans (hf a w₁)

theorem follows_run : Follows run := by
  have hclassify : Follows classify := .of_perform .classify fun _ => snd_outcome_discard _
  have hsynthesize : Follows synthesize := .of_perform .synthesize fun _ => snd_outcome_discard _
  have hwrite : Follows write := .of_perform .write fun _ => snd_outcome_discard _
  refine .bind (.of_keeps .get) fun w => .bind (.of_keeps (.lift _)) fun _ => ?_
  refine .bind (.of_perform .canonicalize fun _ => rfl) fun _ => ?_
  have hreport : Follows (do return (← get).pipeline.report) :=
    .bind (.of_keeps .get) fun _ => .of_keeps (.pure _)
  dsimp only
  split
  · exact .bind hclassify fun _ => .bind hsynthesize fun _ => .bind hwrite fun _ => hreport
  · exact hreport

theorem isNamed_ofOptions {o : Options} (h : ofOptions o = .ok p) : p.IsNamed := by
  rw [eq_of_ofOptions h]
  exact ⟨nofun, nofun, nofun, nofun⟩

/-- Whatever is called, in whatever order and with whatever result, all that is written is named
after the class of the skill, and if the class does not climb out, it is below the output directory
and no file elsewhere is touched, unless there are links, which may lead elsewhere. A run is such a
sequence of calls. Only a class that does not climb out keeps the statechart below the output
directory wherever that is. -/
theorem run_writes_below {o : Options} (h : ofOptions o = .ok p) (files : FileTree) :
    Reaches ⟨p, files⟩ (outcome run ⟨p, files⟩).2 ∧
    (∀ w, Reaches ⟨p, files⟩ w → w.pipeline.IsNamed ∧
      ((∀ c, w.pipeline.class? = some c → IsConfined c) →
        (∀ path ∈ w.pipeline.paths, IsBelow p.config.outputDir path) ∧
        (files.LinkFree →
          Step.outside p.config.outputDir w = Step.outside p.config.outputDir ⟨p, files⟩))) ∧
    ∀ names : SkillNames, IsConfined names.className ↔
      ∀ dir : Path, IsBelow dir ((dir.join "src").join names.canonicalFile) := by
  refine ⟨follows_run _, fun w hw => ?_, isConfined_className_iff⟩
  have hrespects := (hw.respects (fits_ofOptions h) (isNamed_ofOptions h)).2
  refine ⟨hrespects.isNamed, fun hconfined =>
    ⟨?_, fun hfree => hfree.outside_eq (hrespects.apart hconfined)⟩⟩
  have hbelow := hrespects.isNamed.isBelow hconfined
  rwa [hrespects.config] at hbelow

/-- A skill of a given name. -/
def skillFiles (root : String) : FileTree where
  home := []
  nodes := [(["i"], .file ("<s name=\"" ++ root ++ "\"/>").toUTF8)]

def skillOptions : Options where
  input := some "i"
  outputDir := some "o"
  mode := .translateOnly

def skillPipeline : Pipeline where
  config := ⟨"i", "o", defaultTemplateDir, none, none, none, .translateOnly, false⟩

theorem run_writes_below_sibling :
    ofOptions skillOptions = .ok skillPipeline ∧ IsConfined "../XSkill" ∧
    (outcome run ⟨skillPipeline, skillFiles "../XSkill"⟩).2.pipeline.paths =
      ["o/src/../XSkillSM.scxml"] ∧
    IsBelow "o" "o/src/../XSkillSM.scxml" ∧
    Step.outside "o" (outcome run ⟨skillPipeline, skillFiles "../XSkill"⟩).2 =
      Step.outside "o" ⟨skillPipeline, skillFiles "../XSkill"⟩ := by
  have hconfined : IsConfined "../XSkill" := by decide +kernel
  have hevaluated :
      (outcome run ⟨skillPipeline, skillFiles "../XSkill"⟩).2.pipeline.class? = some "../XSkill" ∧
      (outcome run ⟨skillPipeline, skillFiles "../XSkill"⟩).2.pipeline.paths =
        ["o/src/../XSkillSM.scxml"] := by decide +kernel
  obtain ⟨hclass, hpaths⟩ := hevaluated
  have hoptions : ofOptions skillOptions = .ok skillPipeline := rfl
  obtain ⟨hrun, hreaches, -⟩ := run_writes_below hoptions (skillFiles "../XSkill")
  obtain ⟨hbelow, houtside⟩ := (hreaches _ hrun).2 fun c hc => by
    cases hclass.symm.trans hc
    exact hconfined
  exact ⟨hoptions, hconfined, hpaths, hbelow _ (by rw [hpaths]; exact List.mem_singleton_self _),
    houtside (FileTree.linkFree_of_nodes (by simp [skillFiles, FileNode.isLink]))⟩

/-- A root name may lead two directories up, past the output directory. -/
theorem run_writes_beside_output :
    ofOptions skillOptions = .ok skillPipeline ∧
    (outcome run ⟨skillPipeline, skillFiles "../../XSkill"⟩).1.isOk ∧
    (outcome run ⟨skillPipeline, skillFiles "../../XSkill"⟩).2.pipeline.paths =
      ["o/src/../../XSkillSM.scxml"] ∧
    ¬ IsBelow "o" "o/src/../../XSkillSM.scxml" ∧
    (outcome run ⟨skillPipeline, skillFiles "../../XSkill"⟩).2.files.isFile "XSkillSM.scxml" ∧
    (skillFiles "../../XSkill").isFile "XSkillSM.scxml" = false := by
  refine ⟨rfl, by decide +kernel, by decide +kernel, fun h => ?_, by decide +kernel,
    by decide +kernel⟩
  exact absurd (h []) (by decide +kernel)

end Pipeline

end SkillCompiler
