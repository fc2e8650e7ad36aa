import SkillCompiler.Pipeline.Step
import SkillCompiler.Proofs.Canonical.Passes
import SkillCompiler.Proofs.File.Written

/-!
# What a step leaves alone

`Keeps part x` says that the step `x` does not change a part of the workspace, however it ends. The
work of a step is put together from pieces of which few change anything, so what a step keeps is
read off its pieces: only `classify` changes the registry, and only changes to files change the
files. A step that `ReadsFiles` changes nothing, and ends in the same way whatever the pipeline.
-/

namespace SkillCompiler

namespace Step

variable {α β γ : Type} {w w' : Workspace}

/-! ## The pieces -/

theorem outcome_get : outcome (get : Step Workspace) w = (.ok w, w) := rfl

theorem outcome_lift (x : Logged α) : outcome (liftM x : Step α) w = (.ok x.value, w) := rfl

theorem outcome_ofCompile (x : Compile α) : outcome (ofCompile x) w = (x.result, w) := rfl

theorem outcome_ofExcept (x : Except CompileError α) :
    outcome (ofExcept x : Step α) w = (x, w) := by
  cases x <;> rfl

theorem outcome_change (blame : FileFault → CompileError) (action : FileAction α) :
    outcome (change blame action) w =
      ((action.run w.files).1.mapError blame, { w with files := (action.run w.files).2 }) := rfl

theorem outcome_readText (blame : FileFault → CompileError) (path : Path) :
    outcome (readText blame path) w = ((w.files.readText path).mapError blame, w) := by
  rw [readText, outcome_bind_ok outcome_get, outcome_ofExcept]

theorem outcome_made (step : String) (stage : Stage) {get? : Pipeline → Option α} {a : α}
    (h : get? w.pipeline = some a) : outcome (made step stage get?) w = (.ok a, w) := by
  rw [made, outcome_bind_ok outcome_get]
  simp only [h]
  rfl

/-- A chain of steps ends well only if both parts do. -/
theorem exists_of_outcome_bind {x : Step α} {f : α → Step β} {b : β}
    (h : outcome (x >>= f) w = (.ok b, w')) :
    ∃ a w₁, outcome x w = (.ok a, w₁) ∧ outcome (f a) w₁ = (.ok b, w') := by
  rw [outcome_bind] at h
  split at h
  · rename_i a w₁ hx
    exact ⟨a, w₁, hx, h⟩
  · cases h

/-- What every round of a loop keeps, a loop that ends well keeps. -/
theorem mapM_invariant {f : α → Step β} (P : List α → List β → Workspace → Prop)
    (hstep : ∀ {as bs a b w w'}, P as bs w → outcome (f a) w = (.ok b, w') →
      P (as ++ [a]) (bs ++ [b]) w')
    {l : List α} {bs : List β} (hstart : P [] [] w) (h : outcome (l.mapM f) w = (.ok bs, w')) :
    P l bs w' := by
  have hloop : ∀ (l as : List α) (acc : List β) (w : Workspace), P as acc.reverse w →
      outcome (List.mapM.loop f l acc) w = (.ok bs, w') → P (as ++ l) bs w' := by
    intro l
    induction l with
    | nil =>
      intro as acc w hacc h
      cases h
      rwa [List.append_nil]
    | cons a l ih =>
      intro as acc w hacc h
      obtain ⟨b, w₁, ha, h⟩ := exists_of_outcome_bind h
      have hnext := hstep hacc ha
      rw [← List.reverse_cons] at hnext
      rw [← List.singleton_append, ← List.append_assoc]
      exact ih _ _ w₁ hnext h
  exact hloop l [] [] w hstart h

/-! ## What is kept -/

/-- A step that does not change a part of the workspace. -/
def Keeps (part : Workspace → γ) (x : Step α) : Prop :=
  ∀ w, part (outcome x w).2 = part w

variable {part : Workspace → γ}

theorem Keeps.eq {x : Step α} (hx : Keeps id x) {r : Except CompileError α}
    (h : outcome x w = (r, w')) : w' = w := by
  have hw := hx w
  rw [h] at hw
  exact hw

theorem Keeps.pure (a : α) : Keeps part (Pure.pure a) := fun _ => rfl

theorem Keeps.throw (e : CompileError) : Keeps part (MonadExcept.throw e : Step α) := fun _ => rfl

theorem Keeps.get : Keeps part (MonadState.get : Step Workspace) := fun _ => rfl

theorem Keeps.lift (x : Logged α) : Keeps part (liftM x : Step α) := fun _ => rfl

theorem Keeps.ofCompile (x : Compile α) : Keeps part (ofCompile x) := fun _ => rfl

theorem Keeps.ofExcept (x : Except CompileError α) : Keeps part (ofExcept x : Step α) := fun w => by
  rw [outcome_ofExcept]

theorem Keeps.bind {x : Step α} {f : α → Step β} (hx : Keeps part x)
    (hf : ∀ a, Keeps part (f a)) : Keeps part (x >>= f) := by
  intro w
  have hw := hx w
  rw [outcome_bind]
  split
  · rename_i a w₁ h
    rw [h] at hw
    rw [hf a w₁, hw]
  · rename_i e w₁ h
    rw [h] at hw
    exact hw

theorem Keeps.readText (blame : FileFault → CompileError) (path : Path) :
    Keeps part (readText blame path) := fun w => by
  rw [outcome_readText]

theorem Keeps.require (step : String) (stage : Stage) : Keeps part (require step stage) := by
  intro w
  rw [outcome_require]
  split <;> rfl

theorem Keeps.made (step : String) (stage : Stage) (get? : Pipeline → Option α) :
    Keeps part (made step stage get?) := by
  refine .bind .get fun w => ?_
  dsimp only
  split
  · exact .pure _
  · exact .throw _

theorem Keeps.update {f : Pipeline → Pipeline}
    (h : ∀ w : Workspace, part { w with pipeline := f w.pipeline } = part w) :
    Keeps part (update f) := h

theorem Keeps.mapM {f : α → Step β} (h : ∀ a, Keeps part (f a)) (l : List α) :
    Keeps part (l.mapM f) := by
  have hloop : ∀ (l : List α) (acc : List β), Keeps part (List.mapM.loop f l acc) := by
    intro l
    induction l with
    | nil => exact fun acc => .pure _
    | cons a l ih => exact fun acc => .bind (h a) fun b => ih (b :: acc)
  exact hloop l []

/-- Work on files does not touch the pipeline. -/
theorem Keeps.change (blame : FileFault → CompileError) (action : FileAction α) :
    Keeps Workspace.pipeline (change blame action) := fun _ => rfl

/-! ## What only reads files -/

/-- How a step ends depends on the files alone, and it changes nothing. -/
def ReadsFiles (x : Step α) : Prop :=
  ∀ (p p' : Pipeline) (files : FileTree),
    outcome x ⟨p', files⟩ = ((outcome x ⟨p, files⟩).1, ⟨p', files⟩)

theorem ReadsFiles.keeps {x : Step α} (h : ReadsFiles x) : Keeps part x := fun w => by
  rw [h w.pipeline w.pipeline w.files]

theorem ReadsFiles.pure (a : α) : ReadsFiles (Pure.pure a) := fun _ _ _ => rfl

theorem ReadsFiles.ofCompile (x : Compile α) : ReadsFiles (ofCompile x) := fun _ _ _ => rfl

theorem ReadsFiles.readText (blame : FileFault → CompileError) (path : Path) :
    ReadsFiles (readText blame path) := fun p p' files => by
  rw [outcome_readText, outcome_readText]

theorem ReadsFiles.bind {x : Step α} {f : α → Step β} (hx : ReadsFiles x)
    (hf : ∀ a, ReadsFiles (f a)) : ReadsFiles (x >>= f) := by
  intro p p' files
  have hsame := hx p p files
  have hother := hx p p' files
  cases h : (outcome x ⟨p, files⟩).1 with
  | error e =>
    rw [h] at hsame hother
    rw [outcome_bind_error hsame, outcome_bind_error hother]
  | ok a =>
    rw [h] at hsame hother
    rw [outcome_bind_ok hsame, outcome_bind_ok hother]
    exact hf a p p' files

end Step

open Step

/-! ## The steps of a run -/

theorem ArtifactTexts.keeps_load {γ : Type} {part : Workspace → γ} (dir : Path)
    (dataModel : Bool) : Keeps part (ArtifactTexts.load dir dataModel) := by
  refine .bind (.mapM (fun kind => ?_) _) fun texts => .bind (.lift _) fun _ => .pure _
  refine .bind .get fun w => ?_
  dsimp only
  split
  · exact .bind (.throw _) fun _ => .bind (.readText _ _) fun _ => .bind (.lift _) fun _ => .pure _
  · exact .bind (.readText _ _) fun _ => .bind (.lift _) fun _ => .pure _

theorem Artifacts.keeps_write (a : Artifacts) (dir : Path) :
    Keeps Workspace.pipeline (a.write dir) := by
  refine .bind (.mapM (fun (kind, text) => ?_) _) fun paths => .bind (.lift _) fun _ => .pure _
  unfold Artifacts.writeOne
  dsimp only
  split
  · exact .bind (.change _ _) fun _ => .bind (.change _ _) fun _ => .bind (.lift _) fun _ => .pure _
  · exact .bind (.change _ _) fun _ => .bind (.lift _) fun _ => .pure _

namespace Pipeline

theorem keeps_synthesize : Keeps (fun w => w.pipeline.registry) synthesize := by
  refine .bind (.require _ _) fun _ => .bind (.made _ _ _) fun canonical => ?_
  split
  · refine .bind (.ofExcept _) fun names => .bind .get fun w => ?_
    refine .bind (ArtifactTexts.keeps_load _ _) fun templates => .bind (.lift _) fun artifacts => ?_
    exact .bind (.update fun w => rfl) fun _ => .pure _
  · exact .throw _

theorem keeps_write : Keeps (fun w => w.pipeline.registry) write := by
  refine .bind (.require _ _) fun _ => .bind (.made _ _ _) fun artifacts => .bind .get fun w => ?_
  refine .bind (fun w => ?_) fun paths => .bind (.update fun w => rfl) fun _ => .pure _
  exact congrArg Pipeline.registry (artifacts.keeps_write _ w)

theorem readsFiles_classifier (config : Config) (declarations : Document) :
    ReadsFiles (classifier config declarations) := by
  have hload : ∀ {α : Type} (path? : Option Path) (load : String → Compile α),
      ReadsFiles (path?.mapM fun path => do
        ofCompile (load (← readText (.documentFile path) path))) := by
    intro α path? load
    cases path? with
    | none => exact .pure _
    | some path => exact .bind (.bind (.readText _ _) fun text => .ofCompile _) fun _ => .pure _
  intro p p' files
  unfold classifier
  rw [outcome_bind_ok outcome_get, outcome_bind_ok outcome_get]
  dsimp only
  split
  · exact ReadsFiles.bind (.ofCompile _) (fun _ => .bind (hload _ _) fun _ =>
      .bind (hload _ _) fun _ => .pure _) p p' files
  · exact ReadsFiles.bind (hload _ _) (fun _ => .bind (hload _ _) fun _ => .pure _) p p' files

/-! ## The canonical statechart -/

variable {w w' : Workspace} {text : String} {doc : Document}

theorem outcome_readDocument {path : Path} (hread : w.files.readText path = .ok text)
    (hparse : Document.parse text = .ok doc) : outcome (readDocument path) w = (.ok doc, w) := by
  have hload : (Document.load text).result = .ok doc := by
    rw [Document.load, Attempt.result_bind, Compile.result_document hparse]
    rfl
  have htext : outcome (readText (.documentFile path) path) w = (.ok text, w) := by
    rw [outcome_readText, hread]
    rfl
  rw [readDocument, outcome_bind_ok htext, outcome_ofCompile, hload]

/-- Where a statechart is written and what is there then do not depend on the pipeline. -/
theorem exists_outcome_write (c : Canonical) (dir : Path) (files : FileTree) :
    ∃ r files', (∀ p, outcome (c.write dir) ⟨p, files⟩ = (r, ⟨p, files'⟩)) ∧
      ∀ path, r = .ok path → files'.readText path = .ok c.document.print := by
  have hchange : ∀ {α : Type} (blame : FileFault → CompileError) (action : FileAction α)
      {files files₁ : FileTree} {r : Except FileFault α}, action.run files = (r, files₁) →
        ∀ p, outcome (change blame action) ⟨p, files⟩ = (r.mapError blame, ⟨p, files₁⟩) := by
    intro α blame action files files₁ r h p
    rw [outcome_change, h]
  rcases hdir : (FileAction.makeDirectories dir).run files with ⟨fault | _, files₁⟩
  · refine ⟨.error (.file dir fault), files₁, fun p => ?_, by simp⟩
    rw [Canonical.write, outcome_bind_error (hchange _ _ hdir p)]
  rcases hfile : (FileAction.writeText (c.pathIn dir) c.document.print).run files₁
    with ⟨fault | _, files₂⟩
  · refine ⟨.error (.documentFile (c.pathIn dir) fault), files₂, fun p => ?_, by simp⟩
    rw [Canonical.write, outcome_bind_ok (hchange _ _ hdir p),
      outcome_bind_error (hchange _ _ hfile p)]
  · refine ⟨.ok (c.pathIn dir), files₂, fun p => ?_, fun path hpath => ?_⟩
    · rw [Canonical.write, outcome_bind_ok (hchange _ _ hdir p),
        outcome_bind_ok (hchange _ _ hfile p)]
      rfl
    · cases hpath
      exact FileTree.readText_of_writeText hfile

theorem outcome_canonicalize_of_translates {c : Canonical} (hstage : w.pipeline.stage = .start)
    (hmode : w.pipeline.config.mode.translates)
    (hread : w.files.readText w.pipeline.config.input = .ok text)
    (hparse : Document.parse text = .ok doc) (hc : (Canonical.canonicalize doc).result = .ok c) :
    outcome canonicalize w =
      match outcome (c.write (w.pipeline.config.outputDir.join "src")) w with
      | (.ok path, w₁) => (.ok (), { w₁ with pipeline := { w₁.pipeline with
          canonical := some c.document, canonicalPath := some path, declarations := some doc,
          stage := .canonicalized } })
      | (.error e, w₁) => (.error e, w₁) := by
  have hrequire : outcome (require "canonicalize" .start) w = (.ok (), w) := by
    rw [outcome_require, if_pos hstage]
  have hcompile : outcome (ofCompile (Canonical.canonicalize doc)) w = (.ok c, w) := by
    rw [outcome_ofCompile, hc]
  rw [canonicalize, outcome_bind_ok hrequire, outcome_bind_ok outcome_get,
    outcome_bind_ok (outcome_readDocument hread hparse)]
  simp only [hmode, if_true]
  rw [outcome_bind_ok hcompile, outcome_bind]
  rcases outcome (c.write (w.pipeline.config.outputDir.join "src")) w with ⟨_ | path, w₁⟩
  · rfl
  · rfl

theorem outcome_canonicalize_of_not_translates (hstage : w.pipeline.stage = .start)
    (hmode : w.pipeline.config.mode.translates = false)
    (hread : w.files.readText w.pipeline.config.input = .ok text)
    (hparse : Document.parse text = .ok doc) :
    outcome canonicalize w = (.ok (), { w with pipeline := { w.pipeline with
      canonical := some doc, declarations := some doc, stage := .canonicalized } }) := by
  have hrequire : outcome (require "canonicalize" .start) w = (.ok (), w) := by
    rw [outcome_require, if_pos hstage]
  rw [canonicalize, outcome_bind_ok hrequire, outcome_bind_ok outcome_get,
    outcome_bind_ok (outcome_readDocument hread hparse)]
  simp only [hmode, Bool.false_eq_true, if_false]
  rfl

/-! ## Runs -/

/-- The steps that a run has taken which ends well. -/
theorem exists_steps_of_run {report : Report} (h : outcome run w = (.ok report, w')) :
    report = w'.pipeline.report ∧ ∃ w₁, outcome canonicalize w = (.ok (), w₁) ∧
      (w.pipeline.config.mode.generates = false → w' = w₁) ∧
      (w.pipeline.config.mode.generates → ∃ sum w₂ artifacts w₃ paths,
        outcome classify w₁ = (.ok sum, w₂) ∧ outcome synthesize w₂ = (.ok artifacts, w₃) ∧
          outcome write w₃ = (.ok paths, w')) := by
  rw [run, outcome_bind_ok outcome_get, outcome_bind_ok (outcome_lift _)] at h
  obtain ⟨_, w₁, h₁, h⟩ := exists_of_outcome_bind h
  cases hmode : w.pipeline.config.mode.generates with
  | false =>
    simp only [hmode, Bool.false_eq_true, if_false] at h
    cases h
    exact ⟨rfl, w', h₁, fun _ => rfl, nofun⟩
  | true =>
    simp only [hmode, if_true] at h
    obtain ⟨sum, w₂, h₂, h⟩ := exists_of_outcome_bind h
    obtain ⟨artifacts, w₃, h₃, h⟩ := exists_of_outcome_bind h
    obtain ⟨paths, w₄, h₄, h⟩ := exists_of_outcome_bind h
    cases h
    exact ⟨rfl, w₁, h₁, nofun, fun _ => ⟨sum, w₂, artifacts, w₃, paths, h₂, h₃, h₄⟩⟩

/-- Nothing that a run does after registering changes the registry. -/
theorem registry_run {w₁ : Workspace} (hmode : w.pipeline.config.mode.generates)
    (h : outcome canonicalize w = (.ok (), w₁)) :
    (outcome run w).2.pipeline.registry = (outcome classify w₁).2.pipeline.registry := by
  rw [run, outcome_bind_ok outcome_get, outcome_bind_ok (outcome_lift _), outcome_bind_ok h]
  simp only [hmode, if_true]
  rcases hround : outcome classify w₁ with ⟨e | sum, w₂⟩
  · rw [outcome_bind_error hround]
  · rw [outcome_bind_ok hround]
    have hrest : Keeps (fun w => w.pipeline.registry) (do
        let _ ← synthesize
        let _ ← write
        return (← get).pipeline.report) :=
      .bind keeps_synthesize fun _ => .bind keeps_write fun _ => .bind .get fun _ => .pure _
    exact hrest w₂

theorem outcome_run_of_not_generates {w₁ : Workspace}
    (hmode : w.pipeline.config.mode.generates = false)
    (h : outcome canonicalize w = (.ok (), w₁)) :
    outcome run w = (.ok w₁.pipeline.report, w₁) := by
  rw [run, outcome_bind_ok outcome_get, outcome_bind_ok (outcome_lift _), outcome_bind_ok h]
  simp only [hmode, Bool.false_eq_true, if_false]
  rfl

end Pipeline

end SkillCompiler
