import SkillCompiler.Proofs.Pipeline.Confinement
import SkillCompiler.Proofs.Synthesis.Order

/-!
# What a run changes

A run that ends well has put the statechart and the artifacts where their paths lead, and has
changed no other file (`run_changes_reported`). The paths are made from the root name, which may be
any text, and may lead anywhere. But a file of each kind is named with an ending of its own
(`fileEnding`), and none of these endings ends another, so two files never fall together and none is
written over, unless one of them is a link to another (`run_overwrites_linked`).
-/

namespace SkillCompiler

open SkillCompiler.Path Step

/-! ## Names of files -/

/-- How the name of a file ends: the statechart's or an artifact's. -/
def fileEnding : Option ArtifactKind → String
  | none => "SkillSM.scxml"
  | some .header => "Skill.h"
  | some .source => "Skill.cpp"
  | some .dataModelHeader => "SkillDataModel.h"
  | some .dataModelSource => "SkillDataModel.cpp"
  | some .main => "main.cpp"
  | some .cmakeLists => "CMakeLists.txt"
  | some .packageManifest => "package.xml"

theorem forall_kind {P : Option ArtifactKind → Prop}
    (h : ∀ k ∈ none :: ArtifactKind.all.map some, P k) : ∀ k, P k := by
  intro k
  refine h k ?_
  rcases k with _ | kind
  · decide
  · cases kind <;> decide

/-- An ending lies within one segment, and is more than dots. -/
theorem fileEnding_isName (k : Option ArtifactKind) :
    '/' ∉ (fileEnding k).toList ∧ ∃ c ∈ (fileEnding k).toList, c ≠ '.' := by
  have hall : ∀ k, '/' ∉ (fileEnding k).toList ∧ (fileEnding k).toList.any (· ≠ '.') :=
    forall_kind (by decide +kernel)
  obtain ⟨hslash, hdot⟩ := hall k
  rw [List.any_eq_true] at hdot
  exact ⟨hslash, by simpa using hdot⟩

theorem eq_of_fileEnding_suffix :
    ∀ {k k' : Option ArtifactKind}, (fileEnding k).toList <:+ (fileEnding k').toList → k = k' := by
  have hall : ∀ k ∈ none :: ArtifactKind.all.map some, ∀ k' ∈ none :: ArtifactKind.all.map some,
      (fileEnding k).toList <:+ (fileEnding k').toList → k = k' := by decide +kernel
  exact fun {k k'} => forall_kind (fun k hk => forall_kind (hall k hk)) k k'

/-- A file that a run writes. -/
structure Output where
  kind : Option ArtifactKind
  path : Path
  text : String
  named : ∃ front, path = front ++ fileEnding kind

/-- Paths that lead to one file and name no links are of one kind. -/
theorem Output.kind_eq_of_resolve {tree : FileTree} {o o' : Output} {l : Location}
    (h : tree.resolve o.path = .ok l) (hlink : tree.isLink o.path = false)
    (h' : tree.resolve o'.path = .ok l) (hlink' : tree.isLink o'.path = false) :
    o.kind = o'.kind := by
  have hlast : ∀ o : Output, tree.resolve o.path = .ok l → tree.isLink o.path = false →
      ∃ directory last, l = directory ++ [last ++ fileEnding o.kind] := by
    intro o h hlink
    have hentry := FileTree.resolveEntry_of_resolve h hlink
    obtain ⟨front, hfront⟩ := o.named
    obtain ⟨hslash, hdot⟩ := fileEnding_isName o.kind
    rw [hfront] at hentry
    exact FileTree.exists_of_resolveEntry hslash hdot hentry
  obtain ⟨directory, last, hl⟩ := hlast o h hlink
  obtain ⟨directory', last', hl'⟩ := hlast o' h' hlink'
  rw [hl] at hl'
  have hnames : last ++ fileEnding o.kind = last' ++ fileEnding o'.kind := by
    simpa using (List.append_inj' hl' rfl).2
  have hsuffix : (fileEnding o.kind).toList <:+ (last ++ fileEnding o.kind).toList :=
    ⟨last.toList, by simp⟩
  have hsuffix' : (fileEnding o'.kind).toList <:+ (last ++ fileEnding o.kind).toList :=
    ⟨last'.toList, by simp [hnames]⟩
  rcases List.suffix_or_suffix_of_suffix hsuffix hsuffix' with h | h
  · exact eq_of_fileEnding_suffix h
  · exact (eq_of_fileEnding_suffix h).symm

/-! ## Files that were written -/

/-- Where a path leads, if it leads anywhere. -/
def FileTree.leadsTo (tree : FileTree) (path : Path) : Location :=
  (tree.resolve path).toOption.getD []

theorem FileTree.leadsTo_eq {tree : FileTree} {path : Path} {location : Location}
    (h : tree.resolve path = .ok location) : tree.leadsTo path = location := by
  rw [leadsTo, h]
  rfl

/-- Files have been written one after another, and nothing else has changed. -/
structure Wrote (tree tree' : FileTree) (outputs : List Output) : Prop where
  resolve : ∀ o ∈ outputs, tree'.resolve o.path = .ok (tree'.leadsTo o.path)
  puts : tree.Puts tree' (outputs.map fun o => (tree'.leadsTo o.path, o.text.toUTF8))

namespace Wrote

variable {tree tree' tree'' : FileTree} {outputs outputs' : List Output}

theorem refl (tree : FileTree) : Wrote tree tree [] := ⟨by simp, .refl tree⟩

theorem trans (h : Wrote tree tree' outputs) (h' : Wrote tree' tree'' outputs') :
    Wrote tree tree'' (outputs ++ outputs') := by
  -- What was written first is still where it was.
  have hstays : ∀ o ∈ outputs, tree''.resolve o.path = .ok (tree'.leadsTo o.path) :=
    fun o ho => h'.puts.resolve (h.resolve o ho)
  have hmap : (outputs.map fun o => (tree'.leadsTo o.path, o.text.toUTF8)) =
      outputs.map fun o => (tree''.leadsTo o.path, o.text.toUTF8) :=
    List.map_congr_left fun o ho => by rw [FileTree.leadsTo_eq (hstays o ho)]
  refine ⟨fun o ho => ?_, ?_⟩
  · rcases List.mem_append.1 ho with ho | ho
    · rw [hstays o ho, FileTree.leadsTo_eq (hstays o ho)]
    · exact h'.resolve o ho
  · rw [List.map_append, ← hmap]
    exact h.puts.trans h'.puts

/-- Directories are made and then a text is written. -/
theorem of_writeText {o : Output} (hdirectories : tree.Puts tree' [])
    (h : (FileAction.writeText o.path o.text).run tree' = (.ok (), tree'')) :
    Wrote tree tree'' [o] := by
  obtain ⟨location, hpath, hputs⟩ := FileAction.exists_of_writeText h
  have hresolve := hputs.resolve hpath
  have hlocation := FileTree.leadsTo_eq hresolve
  refine ⟨fun o' ho' => ?_, ?_⟩
  · rw [List.mem_singleton.1 ho', hlocation]
    exact hresolve
  · rw [List.map_singleton, hlocation]
    exact hdirectories.trans hputs

/-- Files of different kinds are at different locations, if none of them is a link. -/
theorem nodup_leadsTo (h : Wrote tree tree' outputs) (hkinds : (outputs.map Output.kind).Nodup)
    (hlinks : ∀ o ∈ outputs, tree'.isLink o.path = false) :
    (outputs.map fun o => tree'.leadsTo o.path).Nodup := by
  rw [List.Nodup, List.pairwise_map] at hkinds ⊢
  refine hkinds.imp_of_mem fun {o o'} ho ho' hne heq => hne ?_
  have hresolve := h.resolve o' ho'
  rw [← heq] at hresolve
  exact Output.kind_eq_of_resolve (h.resolve o ho) (hlinks o ho) hresolve (hlinks o' ho')

theorem readText (h : Wrote tree tree' outputs) (hkinds : (outputs.map Output.kind).Nodup)
    (hlinks : ∀ o ∈ outputs, tree'.isLink o.path = false) {o : Output} (ho : o ∈ outputs) :
    tree'.readText o.path = .ok o.text := by
  refine FileTree.readText_of_fileAt? (h.resolve o ho) ?_
  refine h.puts.fileAt?_of_mem ?_ (List.mem_map_of_mem ho)
  rw [List.map_map]
  exact h.nodup_leadsTo hkinds hlinks

theorem fileAt?_of_forall (h : Wrote tree tree' outputs) {l : Location}
    (hl : ∀ o ∈ outputs, tree'.resolve o.path ≠ .ok l) : tree'.fileAt? l = tree.fileAt? l := by
  refine h.puts.fileAt?_of_notMem fun hmem => ?_
  rw [List.map_map] at hmem
  obtain ⟨o, ho, hlocation⟩ := List.mem_map.1 hmem
  have hresolve := h.resolve o ho
  rw [show tree'.leadsTo o.path = l from hlocation] at hresolve
  exact hl o ho hresolve

end Wrote

/-! ## What the steps write -/

variable {w w' : Workspace}

theorem Step.exists_of_change {α : Type} {blame : FileFault → CompileError} {action : FileAction α}
    {a : α} (h : outcome (change blame action) w = (.ok a, w')) :
    action.run w.files = (.ok a, w'.files) ∧ w'.pipeline = w.pipeline := by
  have hleads := leads_change blame action w
  unfold Leads at hleads
  rwa [h] at hleads

theorem Step.puts_of_makeDirectories {blame : FileFault → CompileError} {path : Path}
    (h : outcome (change blame (.makeDirectories path)) w = (.ok (), w')) :
    w.files.Puts w'.files [] ∧ w'.pipeline = w.pipeline := by
  obtain ⟨hrun, hpipeline⟩ := exists_of_change h
  have hputs := FileAction.putsNothing_makeDirectories path w.files
  rw [hrun] at hputs
  exact ⟨hputs, hpipeline⟩

namespace Canonical

/-- The file of a statechart. -/
def output (c : Canonical) (dir : Path) : Output where
  kind := none
  path := c.pathIn dir
  text := c.document.print
  named := by
    have hfile : c.names.canonicalFile = c.names.skill ++ fileEnding none := String.append_assoc ..
    rw [pathIn, hfile]
    exact exists_join_append ..

theorem wrote_of_write {c : Canonical} {dir path : Path}
    (h : outcome (c.write dir) w = (.ok path, w')) :
    path = (c.output dir).path ∧ w'.pipeline = w.pipeline ∧
      Wrote w.files w'.files [c.output dir] := by
  obtain ⟨_, w₁, h₁, h⟩ := exists_of_outcome_bind h
  obtain ⟨_, w₂, h₂, h⟩ := exists_of_outcome_bind h
  obtain ⟨hdirectories, hpipeline⟩ := puts_of_makeDirectories h₁
  obtain ⟨hrun, hpipeline'⟩ := exists_of_change h₂
  cases h
  exact ⟨rfl, hpipeline'.trans hpipeline, .of_writeText hdirectories hrun⟩

end Canonical

namespace Artifacts

theorem exists_outputPath (names : SkillNames) (kind : ArtifactKind) :
    ∃ front, kind.outputPath names = front ++ fileEnding (some kind) := by
  have hclass : ∀ (dir : Path) (ending : String),
      ∃ front, dir.join (names.className ++ ending) = front ++ (skillWord ++ ending) := by
    intro dir ending
    rw [SkillNames.className, String.append_assoc]
    exact exists_join_append ..
  cases kind with
  | header => exact hclass "include" ".h"
  | source => exact hclass "src" ".cpp"
  | dataModelHeader => exact hclass "include" "DataModel.h"
  | dataModelSource => exact hclass "src" "DataModel.cpp"
  | main => exact ⟨"src/", rfl⟩
  | cmakeLists => exact ⟨"", rfl⟩
  | packageManifest => exact ⟨"", rfl⟩

/-- The file of an artifact. -/
def output (dir : Path) (names : SkillNames) (kind : ArtifactKind) (text : String) : Output where
  kind := some kind
  path := dir.join (kind.outputPath names)
  text := text
  named := by
    obtain ⟨front, hfront⟩ := exists_outputPath names kind
    rw [hfront]
    exact exists_join_append ..

def outputs (a : Artifacts) (dir : Path) : List Output :=
  a.texts.map fun (kind, text) => output dir a.names kind text

theorem wrote_of_writeOne {dir path : Path} {names : SkillNames} {kind : ArtifactKind}
    {text : String} (h : outcome (writeOne dir names kind text) w = (.ok path, w')) :
    path = (output dir names kind text).path ∧
      Wrote w.files w'.files [output dir names kind text] := by
  unfold writeOne at h
  dsimp only at h
  split at h
  · obtain ⟨_, w₁, h₁, h⟩ := exists_of_outcome_bind h
    obtain ⟨_, w₂, h₂, h⟩ := exists_of_outcome_bind h
    cases h
    exact ⟨rfl, .of_writeText (puts_of_makeDirectories h₁).1 (exists_of_change h₂).1⟩
  · obtain ⟨_, w₂, h₂, h⟩ := exists_of_outcome_bind h
    cases h
    exact ⟨rfl, .of_writeText (.refl _) (exists_of_change h₂).1⟩

theorem wrote_of_write {a : Artifacts} {dir : Path} {paths : List Path}
    (h : outcome (a.write dir) w = (.ok paths, w')) :
    paths = (a.outputs dir).map Output.path ∧ w'.pipeline = w.pipeline ∧
      Wrote w.files w'.files (a.outputs dir) := by
  have hpipeline := a.keeps_write dir w
  rw [h] at hpipeline
  obtain ⟨_, w₁, h₁, h⟩ := exists_of_outcome_bind h
  cases h
  have hwrote := mapM_invariant (fun texts paths w₁ =>
      paths = (texts.map fun (kind, text) => output dir a.names kind text).map Output.path ∧
      Wrote w.files w₁.files (texts.map fun (kind, text) => output dir a.names kind text))
    (fun {texts paths entry path w₁ w₂} hbefore hentry => ?_) ⟨rfl, .refl _⟩ h₁
  · exact ⟨hwrote.1, hpipeline, hwrote.2⟩
  · obtain ⟨rfl, hwrote⟩ := hbefore
    obtain ⟨rfl, hone⟩ := wrote_of_writeOne hentry
    rw [List.map_append]
    exact ⟨by simp, hwrote.trans hone⟩

end Artifacts

namespace Pipeline

theorem wrote_of_canonicalize (h : outcome canonicalize w = (.ok (), w')) :
    ∃ text source charts, w.files.readText w.pipeline.config.input = .ok text ∧
      Document.parse text = .ok source ∧ Wrote w.files w'.files charts ∧
      (w.pipeline.config.mode.translates = false →
        charts = [] ∧ w'.pipeline = { w.pipeline with
          canonical := some source
          declarations := some source
          stage := .canonicalized }) ∧
      (w.pipeline.config.mode.translates → ∃ c, (Canonical.canonicalize source).result = .ok c ∧
        charts = [c.output (w.pipeline.config.outputDir.join "src")] ∧
        w'.pipeline = { w.pipeline with
          canonical := some c.document
          canonicalPath := some (c.pathIn (w.pipeline.config.outputDir.join "src"))
          declarations := some source
          stage := .canonicalized }) := by
  obtain ⟨_, w₁, h₁, h⟩ := exists_of_outcome_bind h
  cases (Keeps.require _ _).eq h₁
  rw [outcome_bind_ok outcome_get] at h
  obtain ⟨source, w₂, h₂, h⟩ := exists_of_outcome_bind h
  cases (keeps_readDocument _).eq h₂
  obtain ⟨text, hread, hparse⟩ := exists_of_readDocument h₂
  cases hmode : w.pipeline.config.mode.translates with
  | false =>
    simp only [hmode, Bool.false_eq_true, if_false] at h
    cases h
    exact ⟨text, source, [], hread, hparse, .refl _, fun _ => ⟨rfl, rfl⟩, nofun⟩
  | true =>
    simp only [hmode, if_true] at h
    obtain ⟨c, w₃, h₃, h⟩ := exists_of_outcome_bind h
    rw [outcome_ofCompile, Prod.mk.injEq] at h₃
    obtain ⟨hc, rfl⟩ := h₃
    obtain ⟨path, w₄, h₄, h⟩ := exists_of_outcome_bind h
    obtain ⟨rfl, hpipeline, hwrote⟩ := Canonical.wrote_of_write h₄
    cases h
    refine ⟨text, source, _, hread, hparse, hwrote, nofun, fun _ => ⟨c, hc, rfl, ?_⟩⟩
    rw [← hpipeline]
    rfl

theorem exists_of_classify_ok {p : Pipeline} {files : FileTree} {sum : Registration}
    (hfits : p.Fits) (hstage : p.stage = .canonicalized)
    (h : outcome classify ⟨p, files⟩ = (.ok sum, w')) :
    ∃ registry registration,
      w' = ⟨{ p with registry, registration, stage := .classified }, files⟩ := by
  have hfiles := keeps_files_classify ⟨p, files⟩
  have hleads := @leads_classify p files hfits hstage
  unfold Leads at hleads
  rw [h] at hfiles hleads
  rcases w' with ⟨p', files'⟩
  obtain rfl : files' = files := hfiles
  cases hleads with
  | classify registry sum => exact ⟨registry, some sum, rfl⟩

theorem map_fst_of_load {dir : Path} {dataModel : Bool} {templates : ArtifactTexts}
    (h : outcome (ArtifactTexts.load dir dataModel) w = (.ok templates, w')) :
    templates.map Prod.fst = ArtifactKind.all.filter fun k => dataModel || !k.isDataModel := by
  obtain ⟨_, w₁, h₁, h⟩ := exists_of_outcome_bind h
  cases h
  refine mapM_invariant (fun kinds texts _ => texts.map Prod.fst = kinds)
    (fun {kinds texts kind entry w₁ w₂} hbefore hentry => ?_) rfl h₁
  have hkind : entry.1 = kind := by
    unfold ArtifactTexts.loadOne at hentry
    rw [outcome_bind_ok outcome_get] at hentry
    dsimp only at hentry
    split at hentry
    · cases hentry
    · obtain ⟨text, w₃, -, hentry⟩ := exists_of_outcome_bind hentry
      cases hentry
      rfl
  rw [List.map_append, hbefore, List.map_singleton, hkind]

/-- Each kind of artifact is made once. -/
theorem exists_of_synthesize {a : Artifacts} (h : outcome synthesize w = (.ok a, w')) :
    w' = ⟨{ w.pipeline with artifacts := some a, stage := .synthesized }, w.files⟩ ∧
      (a.texts.map Prod.fst).Nodup := by
  obtain ⟨_, w₁, h₁, h⟩ := exists_of_outcome_bind h
  cases (Keeps.require _ _).eq h₁
  obtain ⟨canonical, w₁, h₁, h⟩ := exists_of_outcome_bind h
  cases (Keeps.made _ _ _).eq h₁
  dsimp only at h
  split at h
  · obtain ⟨names, w₁, h₁, h⟩ := exists_of_outcome_bind h
    cases (Keeps.ofExcept _).eq h₁
    rw [outcome_bind_ok outcome_get] at h
    obtain ⟨templates, w₁, hload, h⟩ := exists_of_outcome_bind h
    cases (ArtifactTexts.keeps_load _ _).eq hload
    cases h
    refine ⟨rfl, Artifacts.nodup_kinds_texts _ _ _ ?_⟩
    rw [map_fst_of_load hload]
    exact List.Nodup.filter _ (by decide)
  · cases h

theorem exists_of_write {paths : List Path} {a : Artifacts}
    (ha : w.pipeline.artifacts = some a) (h : outcome write w = (.ok paths, w')) :
    w'.pipeline = { w.pipeline with
      written := (a.outputs w.pipeline.config.outputDir).map Output.path
      stage := .written } ∧
      Wrote w.files w'.files (a.outputs w.pipeline.config.outputDir) := by
  obtain ⟨_, w₁, h₁, h⟩ := exists_of_outcome_bind h
  cases (Keeps.require _ _).eq h₁
  rw [outcome_bind_ok (outcome_made _ _ ha), outcome_bind_ok outcome_get] at h
  obtain ⟨paths, w₁, h₁, h⟩ := exists_of_outcome_bind h
  obtain ⟨rfl, hpipeline, hwrote⟩ := Artifacts.wrote_of_write h₁
  cases h
  refine ⟨?_, hwrote⟩
  rw [← hpipeline]

/-! ## Runs -/

/-- The part of a run that generates. -/
theorem wrote_of_generate {w₁ w₂ w₃ : Workspace} {sum : Registration} {a : Artifacts}
    {paths : List Path} (hfits : w₁.pipeline.Fits) (hstage : w₁.pipeline.stage = .canonicalized)
    (h₁ : outcome classify w₁ = (.ok sum, w₂)) (h₂ : outcome synthesize w₂ = (.ok a, w₃))
    (h₃ : outcome write w₃ = (.ok paths, w')) :
    (∃ registry registration, w'.pipeline = { w₁.pipeline with
      registry, registration
      artifacts := some a
      written := (a.outputs w₁.pipeline.config.outputDir).map Output.path
      stage := .written }) ∧
    (none :: (a.outputs w₁.pipeline.config.outputDir).map Output.kind).Nodup ∧
    Wrote w₁.files w'.files (a.outputs w₁.pipeline.config.outputDir) := by
  obtain ⟨registry, registration, rfl⟩ := exists_of_classify_ok hfits hstage h₁
  obtain ⟨rfl, hkinds⟩ := exists_of_synthesize h₂
  obtain ⟨hpipeline, hwrote⟩ := exists_of_write rfl h₃
  refine ⟨⟨registry, registration, hpipeline⟩, ?_, hwrote⟩
  have hsome : (a.outputs w₁.pipeline.config.outputDir).map Output.kind =
      (a.texts.map Prod.fst).map some := by
    rw [Artifacts.outputs, List.map_map, List.map_map]
    rfl
  rw [hsome, List.nodup_cons]
  refine ⟨by simp, ?_⟩
  rw [List.Nodup, List.pairwise_map]
  exact hkinds.imp fun hne heq => hne (Option.some.inj heq)

/-- What a run that ends well has written. -/
theorem exists_outputs_of_run {o : Options} {p : Pipeline} {files : FileTree} {report : Report}
    (hoptions : ofOptions o = .ok p) (hrun : outcome run ⟨p, files⟩ = (.ok report, w')) :
    ∃ charts artifacts : List Output,
      Wrote files w'.files (charts ++ artifacts) ∧
      ((charts ++ artifacts).map Output.kind).Nodup ∧
      report.canonicalPath.toList = charts.map Output.path ∧
      report.written = artifacts.map Output.path ∧
      (p.config.mode.translates = false → charts = []) ∧
      (p.config.mode.translates → ∃ text source c, files.readText p.config.input = .ok text ∧
        Document.parse text = .ok source ∧ (Canonical.canonicalize source).result = .ok c ∧
        w'.pipeline.canonical = some c.document ∧
        charts = [c.output (p.config.outputDir.join "src")]) ∧
      (p.config.mode.generates = false → artifacts = []) ∧
      (p.config.mode.generates → ∃ a, w'.pipeline.artifacts = some a ∧
        artifacts = a.outputs p.config.outputDir) := by
  obtain ⟨rfl, w₁, hcanonicalize, hstop, hgenerate⟩ := exists_steps_of_run hrun
  obtain ⟨text, source, charts, hread, hparse, hcharts, hadopt, htranslate⟩ :=
    wrote_of_canonicalize hcanonicalize
  have hfits : w₁.pipeline.Fits := by
    have hperform := (fits_ofOptions hoptions).perform files .canonicalize
    rwa [Call.perform, hcanonicalize] at hperform
  have hfresh := eq_of_ofOptions hoptions
  -- Whether or not a statechart is made, nothing else is there yet.
  have hmade : (charts.map Output.kind).Sublist [none] ∧
      w₁.pipeline.canonicalPath.toList = charts.map Output.path ∧
      w₁.pipeline.stage = .canonicalized ∧ w₁.pipeline.config = p.config ∧
      w₁.pipeline.written = [] := by
    cases hmode : p.config.mode.translates with
    | false =>
      obtain ⟨rfl, hpipeline⟩ := hadopt hmode
      rw [hpipeline, hfresh]
      exact ⟨List.nil_sublist _, rfl, rfl, rfl, rfl⟩
    | true =>
      obtain ⟨c, -, rfl, hpipeline⟩ := htranslate hmode
      rw [hpipeline, hfresh]
      exact ⟨List.Sublist.refl _, rfl, rfl, rfl, rfl⟩
  obtain ⟨hkind, hpath, hstage, hconfig, hwritten⟩ := hmade
  cases hmode : p.config.mode.generates with
  | false =>
    obtain rfl := hstop hmode
    refine ⟨charts, [], ?_, ?_, hpath, hwritten, ?_, ?_, fun _ => rfl,
      fun h => absurd h Bool.false_ne_true⟩
    · rwa [List.append_nil]
    · rw [List.append_nil]
      exact hkind.nodup (by simp)
    · exact fun h => (hadopt h).1
    · intro h
      obtain ⟨c, hc, hchart, hpipeline⟩ := htranslate h
      exact ⟨text, source, c, hread, hparse, hc, by rw [hpipeline], hchart⟩
  | true =>
    obtain ⟨sum, w₂, a, w₃, paths, h₁, h₂, h₃⟩ := hgenerate hmode
    obtain ⟨⟨registry, registration, hpipeline'⟩, hkinds, hwrote⟩ :=
      wrote_of_generate hfits hstage h₁ h₂ h₃
    rw [hconfig] at hkinds hwrote hpipeline'
    refine ⟨charts, a.outputs p.config.outputDir, hcharts.trans hwrote, ?_, ?_, ?_, ?_, ?_,
      fun h => absurd h.symm Bool.false_ne_true, fun _ => ⟨a, by rw [hpipeline'], rfl⟩⟩
    · rw [List.map_append]
      exact (hkind.append (List.Sublist.refl _)).nodup hkinds
    · rw [report, hpipeline']
      exact hpath
    · rw [report, hpipeline']
    · exact fun h => (hadopt h).1
    · intro h
      obtain ⟨c, hc, hchart, hpipeline⟩ := htranslate h
      exact ⟨text, source, c, hread, hparse, hc, by rw [hpipeline', hpipeline], hchart⟩

/-- A run that ends well changes the files that its paths lead to, and nothing else: no other file,
and no link. If none of the paths is a link itself, they lead to different files, so each file holds
what was written to it: the statechart, and the text of each artifact that was made. -/
theorem run_changes_reported {o : Options} {p : Pipeline} {files : FileTree} {report : Report}
    (hoptions : ofOptions o = .ok p) (hrun : outcome run ⟨p, files⟩ = (.ok report, w')) :
    let paths := report.canonicalPath.toList ++ report.written
    let unlinked := ∀ path ∈ paths, w'.files.isLink path = false
    (∀ path ∈ paths, ∃ l, w'.files.resolve path = .ok l) ∧
    (unlinked → paths.Pairwise fun a b => w'.files.resolve a ≠ w'.files.resolve b) ∧
    (∀ l, (∀ path ∈ paths, w'.files.resolve path ≠ .ok l) →
      w'.files.fileAt? l = files.fileAt? l) ∧
    (∀ l, w'.files.linkAt? l = files.linkAt? l) ∧
    (p.config.mode.translates = false → report.canonicalPath = none) ∧
    (p.config.mode.translates → ∃ text source c, files.readText p.config.input = .ok text ∧
      Document.parse text = .ok source ∧ (Canonical.canonicalize source).result = .ok c ∧
      w'.pipeline.canonical = some c.document ∧
      report.canonicalPath = some (c.pathIn (p.config.outputDir.join "src")) ∧
      (unlinked →
        w'.files.readText (c.pathIn (p.config.outputDir.join "src")) = .ok c.document.print)) ∧
    (p.config.mode.generates = false → report.written = []) ∧
    (p.config.mode.generates → ∃ a, w'.pipeline.artifacts = some a ∧
      report.written = a.texts.map (fun (kind, _) =>
        p.config.outputDir.join (kind.outputPath a.names)) ∧
      (unlinked → ∀ kind text, (kind, text) ∈ a.texts →
        w'.files.readText (p.config.outputDir.join (kind.outputPath a.names)) = .ok text)) := by
  obtain ⟨charts, artifacts, hwrote, hkinds, hchartPaths, hartifactPaths, hadopt, htranslate, hstop,
    hgenerate⟩ := exists_outputs_of_run hoptions hrun
  dsimp only
  rw [hchartPaths, hartifactPaths, ← List.map_append, List.forall_mem_map, List.forall_mem_map,
    List.pairwise_map]
  refine ⟨fun o ho => ⟨_, hwrote.resolve o ho⟩, fun hlinks => ?_, fun l hl => ?_, hwrote.puts.link,
    ?_, ?_, ?_, ?_⟩
  · have hnodup := hwrote.nodup_leadsTo hkinds hlinks
    rw [List.Nodup, List.pairwise_map] at hnodup
    refine hnodup.imp_of_mem fun {o o'} ho ho' hne heq => hne ?_
    rw [hwrote.resolve o ho, hwrote.resolve o' ho'] at heq
    exact Except.ok.inj heq
  · exact hwrote.fileAt?_of_forall fun o ho => hl o.path (List.mem_map_of_mem ho)
  · intro h
    rw [hadopt h] at hchartPaths
    simpa using hchartPaths
  · intro h
    obtain ⟨text, source, c, hread, hparse, hc, hcanonical, rfl⟩ := htranslate h
    have hpath : report.canonicalPath =
        some (c.output (p.config.outputDir.join "src")).path := by simpa using hchartPaths
    refine ⟨text, source, c, hread, hparse, hc, hcanonical, hpath, fun hlinks => ?_⟩
    have hchart : c.output (p.config.outputDir.join "src") ∈
        [c.output (p.config.outputDir.join "src")] ++ artifacts := by simp
    exact (hwrote.readText hkinds hlinks hchart :)
  · intro h
    rw [hstop h]
    rfl
  · intro h
    obtain ⟨a, ha, rfl⟩ := hgenerate h
    refine ⟨a, ha, ?_, fun hlinks kind text hmem => ?_⟩
    · rw [Artifacts.outputs, List.map_map]
      rfl
    · have houtput : Artifacts.output p.config.outputDir a.names kind text ∈
          a.outputs p.config.outputDir := List.mem_map.2 ⟨(kind, text), hmem, rfl⟩
      exact (hwrote.readText hkinds hlinks (List.mem_append_right charts houtput) :)

/-- A skill whose class leads one directory up, beside empty templates. -/
def climbingFiles : FileTree where
  home := []
  nodes :=
    [(["i"], .file "<s name=\"../ASkill\"/>".toUTF8), (["include"], .directory),
      (["src"], .directory)] ++
    [["include", "TemplateSkill.h"], ["src", "TemplateSkill.cpp"], ["src", "main.cpp"],
      ["CMakeLists.txt"], ["package.xml"]].map fun location => (location, .file .empty)

def climbingOptions : Options where
  input := some "i"
  outputDir := some "o"
  templateDir := some "."

def climbingPipeline : Pipeline where
  config := ⟨"i", "o", ".", none, none, none, .full, false⟩

/-- Header, source and statechart all come to lie in the output directory itself. -/
theorem run_changes_reported_climbing :
    ofOptions climbingOptions = .ok climbingPipeline ∧
    ∃ report w', outcome run ⟨climbingPipeline, climbingFiles⟩ = (.ok report, w') ∧
      report.canonicalPath = some "o/src/../ASkillSM.scxml" ∧
      report.written = ["o/include/../ASkill.h", "o/src/../ASkill.cpp", "o/src/main.cpp",
        "o/CMakeLists.txt", "o/package.xml"] ∧
      w'.files.resolve "o/include/../ASkill.h" ≠ w'.files.resolve "o/src/../ASkill.cpp" ∧
      w'.files.fileAt? ["src", "main.cpp"] = climbingFiles.fileAt? ["src", "main.cpp"] ∧
      ∃ doc, w'.pipeline.canonical = some doc ∧
        w'.files.readText "o/src/../ASkillSM.scxml" = .ok doc.print := by
  have hoptions : ofOptions climbingOptions = .ok climbingPipeline := rfl
  obtain ⟨hevaluated, helsewhere⟩ :
      (outcome run ⟨climbingPipeline, climbingFiles⟩).1.toOption.map (fun report =>
        (report.canonicalPath, report.written)) = some (some "o/src/../ASkillSM.scxml",
          ["o/include/../ASkill.h", "o/src/../ASkill.cpp", "o/src/main.cpp", "o/CMakeLists.txt",
            "o/package.xml"]) ∧
      ∀ path ∈ ["o/src/../ASkillSM.scxml", "o/include/../ASkill.h", "o/src/../ASkill.cpp",
          "o/src/main.cpp", "o/CMakeLists.txt", "o/package.xml"],
        (outcome run ⟨climbingPipeline, climbingFiles⟩).2.files.resolve path ≠
          .ok ["src", "main.cpp"] := by decide +kernel
  rcases hrun : outcome run ⟨climbingPipeline, climbingFiles⟩ with ⟨e | report, w'⟩
  · rw [hrun] at hevaluated
    cases hevaluated
  · rw [hrun] at hevaluated helsewhere
    have hreported := Option.some.inj hevaluated
    rw [Prod.mk.injEq] at hreported
    obtain ⟨hcanonical, hwritten⟩ := hreported
    obtain ⟨-, hpairwise, hother, hlinks, -, htranslate, -⟩ := run_changes_reported hoptions hrun
    -- There are no links before the run, so there are none after it.
    have hfree : climbingFiles.LinkFree :=
      FileTree.linkFree_of_nodes (by simp [climbingFiles, FileNode.isLink])
    have hunlinked : ∀ path ∈ report.canonicalPath.toList ++ report.written,
        w'.files.isLink path = false := fun path _ =>
      FileTree.LinkFree.isLink_eq_false (fun l => (hlinks l).trans (hfree l)) path
    obtain ⟨-, -, c, -, -, -, hdocument, hpath, hfile⟩ := htranslate rfl
    have hfile := hfile hunlinked
    have hpairwise := hpairwise hunlinked
    rw [hcanonical, hwritten] at hother hpairwise
    have hsame := hcanonical.symm.trans hpath
    rw [Option.some.injEq] at hsame
    rw [← hsame] at hfile
    refine ⟨hoptions, report, w', rfl, hcanonical, hwritten, ?_, ?_, c.document, hdocument, hfile⟩
    · exact (List.pairwise_cons.1 (List.pairwise_cons.1 hpairwise).2).1 _ List.mem_cons_self
    · exact hother ["src", "main.cpp"] helsewhere

/-- Templates with texts, and a main file in the output directory that is a link. -/
def linkedFiles : FileTree where
  home := []
  nodes :=
    [(["i"], .file "<s name=\"ASkill\"/>".toUTF8), (["include"], .directory),
      (["src"], .directory), (["include", "TemplateSkill.h"], .file .empty),
      (["src", "TemplateSkill.cpp"], .file .empty), (["src", "main.cpp"], .file "m".toUTF8),
      (["CMakeLists.txt"], .file "c".toUTF8), (["package.xml"], .file .empty),
      (["o"], .directory), (["o", "src"], .directory),
      (["o", "src", "main.cpp"], .symbolicLink "../CMakeLists.txt")]

/-- Where a path is a link to another, two texts go to one file, and the first is lost. -/
theorem run_overwrites_linked :
    (outcome run ⟨climbingPipeline, linkedFiles⟩).1.toOption.map Report.written =
      some ["o/include/ASkill.h", "o/src/ASkill.cpp", "o/src/main.cpp", "o/CMakeLists.txt",
        "o/package.xml"] ∧
    (outcome run ⟨climbingPipeline, linkedFiles⟩).2.files.resolve "o/src/main.cpp" =
      .ok ["o", "CMakeLists.txt"] ∧
    (outcome run ⟨climbingPipeline, linkedFiles⟩).2.files.resolve "o/CMakeLists.txt" =
      .ok ["o", "CMakeLists.txt"] ∧
    (outcome run ⟨climbingPipeline, linkedFiles⟩).2.pipeline.artifacts.any
      (fun a => a.texts.contains (.main, "m")) ∧
    (outcome run ⟨climbingPipeline, linkedFiles⟩).2.files.readText "o/src/main.cpp" = .ok "c" := by
  decide +kernel

end Pipeline

end SkillCompiler
