import SkillCompiler.Proofs.Pipeline.Step
import SkillCompiler.Proofs.Registry.Stop

/-!
# What failures blame

`Blames P x` says that `x` fails only with errors that satisfy `P`. Reading, rewriting, classifying
and writing never blame the stage of the pipeline: an error about the stage comes from a step that
looked at the stage (`CompileError.IsInOrder`).
-/

namespace SkillCompiler

variable {ε α β : Type}

/-- The error does not say that a step is not the next one. -/
def CompileError.IsInOrder : CompileError → Prop
  | .invalidState .. => False
  | _ => True

theorem exists_of_mapError_eq_error {ε' : Type} {x : Except ε α} {f : ε → ε'} {e : ε'}
    (h : x.mapError f = .error e) : ∃ d, e = f d := by
  cases x with
  | error d => exact ⟨d, (Except.error.inj h).symm⟩
  | ok a => cases h

/-! ## Work that may fail -/

namespace Attempt

/-- The work fails only with errors that have a property. -/
def Blames (P : ε → Prop) (x : Attempt ε α) : Prop := ∀ e, x.result = .error e → P e

variable {P : ε → Prop}

theorem Blames.pure (a : α) : Blames P (Pure.pure a) := nofun

theorem Blames.lift (x : Logged α) : Blames P (liftM x : Attempt ε α) := nofun

theorem Blames.ofExcept {x : Except ε α} (h : ∀ e, x = .error e → P e) :
    Blames P (Attempt.ofExcept x) := h

theorem Blames.ofMapError {ε' : Type} {f : ε' → ε} (h : ∀ d, P (f d)) (x : Except ε' α) :
    Blames P (Attempt.ofExcept (x.mapError f)) := by
  intro e he
  obtain ⟨d, rfl⟩ := exists_of_mapError_eq_error he
  exact h d

theorem Blames.bind {x : Attempt ε α} {f : α → Attempt ε β} (hx : Blames P x)
    (hf : ∀ a, Blames P (f a)) : Blames P (x >>= f) := by
  intro e he
  rw [result_bind] at he
  cases hr : x.result with
  | error d =>
    rw [hr] at he
    obtain rfl : d = e := Except.error.inj he
    exact hx d hr
  | ok a =>
    rw [hr] at he
    exact hf a e he

theorem Blames.ofExcept_bind {x : Except ε α} {f : α → Except ε β}
    (hx : Blames P (Attempt.ofExcept x)) (hf : ∀ a, Blames P (Attempt.ofExcept (f a))) :
    Blames P (Attempt.ofExcept (x >>= f)) := by
  intro e he
  cases x with
  | error d =>
    obtain rfl : d = e := Except.error.inj he
    exact hx d rfl
  | ok a => exact hf a e he

theorem Blames.foldlM {f : β → α → Attempt ε β} (h : ∀ b a, Blames P (f b a)) :
    ∀ (l : List α) (b : β), Blames P (l.foldlM f b)
  | [], b => .pure b
  | a :: l, b => .bind (h b a) fun b' => foldlM h l b'

end Attempt

open Attempt

/-! ## Compiling -/

section

open CompileError

theorem Compile.document_blames (x : Except DocumentError α) :
    Blames IsInOrder (Compile.document x) :=
  .ofMapError (fun _ => trivial) x

theorem Document.load_blames (source : String) : Blames IsInOrder (Document.load source) :=
  .bind (Compile.document_blames _) fun _ => .bind (.lift _) fun _ => .pure _

theorem SkillNames.splitRoot_blames (root : String) :
    Blames IsInOrder (Attempt.ofExcept (splitRoot root)) := by
  refine .ofExcept fun e he => ?_
  unfold splitRoot at he
  split at he
  · cases he
    trivial
  · split at he
    · cases he
    · cases he
      trivial

theorem SkillNames.withKind_blames (root : String) (kind : SkillKind) :
    Blames IsInOrder (Attempt.ofExcept (withKind root kind)) :=
  .ofExcept_bind (splitRoot_blames root) fun _ => .pure _

theorem SkillNames.ofRoot_blames (root : String) :
    Blames IsInOrder (Attempt.ofExcept (ofRoot root)) := by
  refine .ofExcept_bind (splitRoot_blames root) fun parts => .ofExcept fun e he => ?_
  dsimp only at he
  split at he
  · cases he
    trivial
  · cases he

namespace Canonical

theorem renameEvent_blames (rule : Rule) (aliases : Assoc String) (doc : Document) (id : NodeId) :
    Blames IsInOrder (renameEvent rule aliases doc id) := by
  unfold renameEvent
  split
  · exact .bind (.lift _) fun _ => Compile.document_blames _
  · exact .bind (.lift _) fun _ => .pure _

theorem splitHandler_blames (target : String) (split : Split) (doc : Document) (id : NodeId) :
    Blames IsInOrder (splitHandler target split doc id) := by
  unfold splitHandler
  dsimp only
  split
  · exact .bind (Compile.document_blames _) fun _ => .bind (Compile.document_blames _) fun _ =>
      .bind (Compile.document_blames _) fun _ => .bind (.lift _) fun _ => .pure _
  · exact .bind (.lift _) fun _ => Compile.document_blames _

theorem applyAt_blames (rule : Rule) (aliases : Assoc String) (doc : Document) (id : NodeId) :
    Blames IsInOrder (applyAt rule aliases doc id) := by
  refine .bind (renameEvent_blames _ _ _ _) fun doc => .bind (Compile.document_blames _) fun doc =>
    .bind (Compile.document_blames _) fun doc => ?_
  split
  · exact splitHandler_blames _ _ _ _
  · exact Compile.document_blames _

theorem apply_blames (rule : Rule) (aliases : Assoc String) (doc : Document) :
    Blames IsInOrder (apply rule aliases doc) := by
  unfold apply
  split
  · exact .pure _
  · exact .bind (.lift _) fun _ => .foldlM (fun doc id => applyAt_blames rule aliases doc id) _ _

theorem canonicalize_blames (source : Document) : Blames IsInOrder (canonicalize source) := by
  refine .bind (SkillNames.withKind_blames _ _) fun names =>
    .bind (.lift _) fun _ => .bind (Compile.document_blames _) fun doc => ?_
  refine .bind (.lift _) fun _ => .bind (Compile.document_blames _) fun doc =>
    .bind (Compile.document_blames _) fun doc => ?_
  refine .bind (.foldlM (fun doc rule => apply_blames rule _ doc) _ _) fun doc => ?_
  exact .bind (Compile.document_blames _) fun doc => .pure _

end Canonical

/-! ## Classifying -/

theorem Library.scan_blames (files : FileTree) (root : Path) :
    Blames IsInOrder (Library.scan files root) :=
  .bind (.ofMapError (fun _ => trivial) _) fun _ => .bind (.lift _) fun _ =>
    .bind (.lift _) fun _ => .pure _

theorem Library.definition_blames (library : Library) (files : FileTree) (type : MessageType) :
    Blames IsInOrder (library.definition files type) := by
  unfold Library.definition
  split
  · exact .bind (.lift _) fun _ => .pure _
  · exact .bind (.ofMapError (fun _ => trivial) _) fun _ =>
      .bind (.ofMapError (fun _ => trivial) _) fun _ => .pure _

theorem InterfaceModel.load_blames (source : String) :
    Blames IsInOrder (InterfaceModel.load source) :=
  .bind (Document.load_blames _) fun _ => .bind (.lift _) fun _ => .pure _

theorem ComponentModel.load_blames (source : String) :
    Blames IsInOrder (ComponentModel.load source) :=
  .bind (Document.load_blames _) fun _ => .pure _

namespace Classifier

variable (c : Classifier)

theorem paired_blames (tag name : String) :
    Blames IsInOrder (Attempt.ofExcept (c.paired tag name)) := by
  refine .ofExcept fun e he => ?_
  unfold paired at he
  split at he
  · cases he
  · cases he
    trivial

theorem requiredAttribute_blames (kind : Interaction) (id : NodeId) (name : String) :
    Blames IsInOrder (Attempt.ofExcept (c.requiredAttribute kind id name)) := by
  refine .ofExcept fun e he => ?_
  unfold requiredAttribute at he
  split at he
  · cases he
  · cases he
    trivial

theorem service_blames (kind : Interaction) (id : NodeId) (request response path : String) :
    Blames IsInOrder (Attempt.ofExcept (c.service kind id request response path)) := by
  refine .ofExcept_bind (c.requiredAttribute_blames kind id "type") fun type => ?_
  exact .ofExcept_bind (c.paired_blames request path) fun _ =>
    .ofExcept_bind (c.paired_blames response path) fun _ => .pure _

theorem extract_blames (kind : Interaction) (id : NodeId) (path : String) :
    Blames IsInOrder (c.extract kind id path) := by
  cases kind with
  | serviceServer => exact c.service_blames _ _ _ _ _
  | serviceClient => exact c.service_blames _ _ _ _ _
  | topicPublisher =>
    exact .bind (.lift _) fun _ => .bind (c.requiredAttribute_blames _ _ _) fun _ =>
      .bind (c.paired_blames _ _) fun _ => .pure _
  | topicSubscriber =>
    exact .bind (.lift _) fun _ => .bind (c.requiredAttribute_blames _ _ _) fun _ =>
      .bind (c.paired_blames _ _) fun _ => .pure _
  | actionServer => exact .bind (.lift _) fun _ => .pure _
  | actionClient => exact .bind (.lift _) fun _ => .pure _

theorem resolveTypes_blames (found : Classification) :
    Blames IsInOrder (c.resolveTypes found) := by
  unfold resolveTypes
  split
  · exact .bind (Library.definition_blames _ _ _) fun _ => .bind (.lift _) fun _ => .pure _
  · exact .bind (.pure _) fun _ => .bind (.lift _) fun _ => .pure _

theorem classifyBy_blames (kind : Interaction) (id : NodeId) (a : Address) :
    Blames IsInOrder (c.classifyBy kind id a) :=
  .bind (c.extract_blames _ _ _) fun _ => .bind (c.resolveTypes_blames _) fun _ =>
    .bind (.lift _) fun _ => .bind (.lift _) fun _ => .pure _

theorem isInOrder_of_classify {a : Address} {e : CompileError}
    (h : (c.classify a).value.1 = .error e) : e.IsInOrder := by
  unfold classify at h
  split at h
  · rename_i kind id _
    exact c.classifyBy_blames kind id _ e h
  · cases h

end Classifier

/-- Registering fails with an error of the classifier. -/
theorem Registry.isInOrder_of_populate {c : Classifier} {r r' : Registry} {events : List Event}
    {e : CompileError} (h : (r.populate c.classify events).value = (.error e, r')) :
    e.IsInOrder := by
  obtain ⟨_, last, _, -, hstops⟩ := exists_stopsAt _ _ _ _ _ _ h
  have hanswer := hstops.failed
  unfold answer at hanswer
  split at hanswer
  · cases hanswer
  · rename_i a _
    cases hfound : (c.classify a).value.1 with
    | error d =>
      rw [hfound] at hanswer
      cases hanswer
      exact c.isInOrder_of_classify hfound
    | ok found =>
      rw [hfound] at hanswer
      cases hanswer

end

/-! ## Steps -/

namespace Step

variable {P : CompileError → Prop}

/-- The step fails only with errors that have a property. -/
def Blames (P : CompileError → Prop) (x : Step α) : Prop :=
  ∀ w e, (outcome x w).1 = .error e → P e

theorem Blames.of_ok {x : Step α} {result : Workspace → α}
    (h : ∀ w, (outcome x w).1 = .ok (result w)) : Blames P x := by
  intro w e he
  rw [h w] at he
  cases he

theorem Blames.pure (a : α) : Blames P (Pure.pure a) := .of_ok fun _ => rfl

theorem Blames.throw {e : CompileError} (h : P e) : Blames P (MonadExcept.throw e : Step α) := by
  intro w d hd
  cases hd
  exact h

theorem Blames.get : Blames P (MonadState.get : Step Workspace) := .of_ok fun _ => rfl

theorem Blames.lift (x : Logged α) : Blames P (liftM x : Step α) := .of_ok fun _ => rfl

theorem Blames.ofCompile {x : Compile α} (h : Attempt.Blames P x) : Blames P (ofCompile x) :=
  fun _ => h

theorem Blames.ofExcept {x : Except CompileError α} (h : Attempt.Blames P (Attempt.ofExcept x)) :
    Blames P (ofExcept x : Step α) := by
  intro w e he
  rw [outcome_ofExcept] at he
  exact h e he

theorem Blames.change {blame : FileFault → CompileError} (h : ∀ fault, P (blame fault))
    (action : FileAction α) : Blames P (change blame action) := by
  intro w e he
  obtain ⟨fault, rfl⟩ := exists_of_mapError_eq_error he
  exact h fault

theorem Blames.readText {blame : FileFault → CompileError} (h : ∀ fault, P (blame fault))
    (path : Path) : Blames P (readText blame path) := by
  intro w e he
  rw [outcome_readText] at he
  obtain ⟨fault, rfl⟩ := exists_of_mapError_eq_error he
  exact h fault

theorem Blames.bind {x : Step α} {f : α → Step β} (hx : Blames P x) (hf : ∀ a, Blames P (f a)) :
    Blames P (x >>= f) := by
  intro w e he
  rw [outcome_bind] at he
  split at he
  · rename_i a w₁ _
    exact hf a w₁ e he
  · rename_i d w₁ hd
    obtain rfl : d = e := Except.error.inj he
    exact hx w d (congrArg Prod.fst hd)

theorem Blames.mapM {f : α → Step β} (h : ∀ a, Blames P (f a)) (l : List α) :
    Blames P (l.mapM f) := by
  have hloop : ∀ (l : List α) (acc : List β), Blames P (List.mapM.loop f l acc) := by
    intro l
    induction l with
    | nil => exact fun acc => .pure _
    | cons a l ih => exact fun acc => .bind (h a) fun b => ih (b :: acc)
  exact hloop l []

end Step

section

open CompileError

theorem Step.readDocument_blames (path : Path) : Step.Blames IsInOrder (readDocument path) :=
  .bind (.readText (fun _ => trivial) path) fun text => .ofCompile (Document.load_blames text)

theorem Canonical.write_blames (c : Canonical) (dir : Path) :
    Step.Blames IsInOrder (c.write dir) :=
  .bind (.change (fun _ => trivial) _) fun _ => .bind (.change (fun _ => trivial) _) fun _ =>
    .bind (.lift _) fun _ => .pure _

theorem ArtifactTexts.load_blames (dir : Path) (dataModel : Bool) :
    Step.Blames IsInOrder (ArtifactTexts.load dir dataModel) := by
  refine .bind (.mapM (fun kind => ?_) _) fun texts => .bind (.lift _) fun _ => .pure _
  refine .bind .get fun w => ?_
  dsimp only
  split
  · exact .bind (.throw trivial) fun _ => .bind (.readText (fun _ => trivial) _) fun _ =>
      .bind (.lift _) fun _ => .pure _
  · exact .bind (.readText (fun _ => trivial) _) fun _ => .bind (.lift _) fun _ => .pure _

theorem Artifacts.write_blames (a : Artifacts) (dir : Path) :
    Step.Blames IsInOrder (a.write dir) := by
  refine .bind (.mapM (fun (kind, text) => ?_) _) fun paths => .bind (.lift _) fun _ => .pure _
  unfold Artifacts.writeOne
  dsimp only
  split
  · exact .bind (.change (fun _ => trivial) _) fun _ => .bind (.change (fun _ => trivial) _)
      fun _ => .bind (.lift _) fun _ => .pure _
  · exact .bind (.change (fun _ => trivial) _) fun _ => .bind (.lift _) fun _ => .pure _

theorem Pipeline.classifier_blames (config : Config) (declarations : Document) :
    Step.Blames IsInOrder (classifier config declarations) := by
  have hload : ∀ {α : Type} (path? : Option Path) {load : String → Compile α},
      (∀ text, Blames IsInOrder (load text)) → Step.Blames IsInOrder (path?.mapM fun path => do
        Step.ofCompile (load (← Step.readText (.documentFile path) path))) := by
    intro α path? load h
    cases path? with
    | none => exact .pure _
    | some path =>
      exact .bind (.bind (.readText (fun _ => trivial) _) fun text => .ofCompile (h text))
        fun _ => .pure _
  refine .bind .get fun w => ?_
  dsimp only
  split
  · exact .bind (.ofCompile (Library.scan_blames _ _)) fun _ =>
      .bind (hload _ InterfaceModel.load_blames) fun _ =>
        .bind (hload _ ComponentModel.load_blames) fun _ => .pure _
  · exact .bind (.pure _) fun _ => .bind (hload _ InterfaceModel.load_blames) fun _ =>
      .bind (hload _ ComponentModel.load_blames) fun _ => .pure _

end

end SkillCompiler
