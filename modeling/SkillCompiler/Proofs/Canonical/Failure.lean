import SkillCompiler.Proofs.Canonical.Refinement

/-!
# When a skill has no canonical statechart

Nothing but the name of the root can be wrong with a skill that was read. The elements of a pass are
collected before the first of them is edited, so an element may have left the tree, inside a
declaration or a handler that was detached, when its own edit comes. It still has its tag and its
parent then, and no edit asks for more: every pass ends well on a document that holds a tree
(`names_canonicalize`), whatever is nested in what.
-/

namespace SkillCompiler

open Document

theorem SkillNames.withKind_eq_error_iff {name : String} {kind : SkillKind} {e : CompileError} :
    withKind name kind = .error e ↔
      (name = "" ∧ e = .missingRootName) ∨
        (name ≠ "" ∧ ¬ Text.contains skillWord name ∧ e = .invalidSkillName name) := by
  have herror : ∀ e' : CompileError, (.error e' : Except CompileError SkillNames) = .error e ↔
      e = e' := by
    intro e'
    rw [Except.error.injEq, eq_comm]
  unfold withKind splitRoot Text.contains
  by_cases hname : name = ""
  · simpa [hname, bind, Except.bind] using herror .missingRootName
  · rcases hcut : Text.cut? skillWord.toList name.toList with _ | ⟨before, after⟩
    · simpa [hname, bind, Except.bind] using herror (.invalidSkillName name)
    · simp [hname, bind, Except.bind, pure, Except.pure]

theorem Except.map_eq_error_iff {ε α β : Type} {f : α → β} {x : Except ε α} {e : ε} :
    x.map f = .error e ↔ x = .error e := by
  cases x <;> simp [Except.map]

namespace Canonical

variable {doc : Document} {tag : String} {as : List Attribute} {below : Forest Content}

/-- The name of the root decides whether there is a canonical statechart. -/
theorem names_canonicalize (h : doc.Holds (.element tag as) below) :
    (canonicalize doc).result.map Canonical.names =
      SkillNames.withKind ((doc.attribute? doc.root "name").getD "") (kindOf doc) := by
  rw [canonicalize]
  simp only [Attempt.result_bind, Attempt.result_ofExcept]
  rcases SkillNames.withKind ((doc.attribute? doc.root "name").getD "") (kindOf doc) with e | names
  · rfl
  · obtain ⟨doc₁, he₁, hr₁, h₁, -⟩ := setAttribute_holds h "name" names.machine
    obtain ⟨doc₂, he₂, hr₂, h₂⟩ := detachAll_holds h₁
    obtain ⟨doc₃, he₃, -, h₃, -⟩ := setAttribute_holds h₂ "xmlns" namespaceName
    obtain ⟨-, h₄⟩ := dropDataTypes_holds h₃
    obtain ⟨doc₅, he₅, -, h₅⟩ := rules_holds (aliases doc₁) h₄
    obtain ⟨doc₆, he₆, -, -⟩ := updateAssigns_holds h₅
    rw [hr₂, hr₁] at he₃
    simp only [Except.ok_bind, Attempt.result_lift, Compile.result_edit he₁,
      Compile.result_document he₂, Compile.result_edit he₃, he₅, Compile.result_document he₆,
      Attempt.result_pure]
    rfl

/-- A skill that was read has no canonical statechart exactly if its root has no name, an empty one
or one without the word `Skill`. No edit is ever refused. -/
theorem canonicalize_error_iff {text : String} {doc : Document}
    (hparse : Document.parse text = .ok doc) :
    (∀ e, (canonicalize doc).result = .error e ↔
      (e = .missingRootName ∧ ∀ name, doc.attribute? doc.root "name" = some name → name = "") ∨
      ∃ name, doc.attribute? doc.root "name" = some name ∧ name ≠ "" ∧
        ¬ Text.contains skillWord name ∧ e = .invalidSkillName name) ∧
    ∀ refusal, (canonicalize doc).result ≠ .error (.document refusal) := by
  obtain ⟨declaration, t, htree, rfl⟩ := exists_ofForest_of_parse hparse
  obtain ⟨tag, as, below, rfl, -⟩ := id htree
  have hnames := names_canonicalize
    ⟨number 1 below, hasTree_ofForest declaration htree, map_snd_number ..⟩
  generalize ofForest declaration (.node (.element tag as) below .nil) = doc at hnames ⊢
  have herror : ∀ e, (canonicalize doc).result = .error e ↔
      (e = .missingRootName ∧ ∀ name, doc.attribute? doc.root "name" = some name → name = "") ∨
      ∃ name, doc.attribute? doc.root "name" = some name ∧ name ≠ "" ∧
        ¬ Text.contains skillWord name ∧ e = .invalidSkillName name := by
    intro e
    rw [← Except.map_eq_error_iff, hnames, SkillNames.withKind_eq_error_iff]
    rcases doc.attribute? doc.root "name" with _ | name <;> simp [and_comm]
  refine ⟨herror, fun refusal hrefused => ?_⟩
  rcases (herror _).1 hrefused with ⟨he, -⟩ | ⟨name, -, -, -, he⟩ <;> cases he

/-- A goal response handler inside another one, which leaves the tree first. -/
def nestedHandlers : Document :=
  ofForest none (.node (.element "s" [⟨"name", "ASkill"⟩])
    (.node (.element "ros_action_handle_goal_response" [⟨"accept", "a"⟩, ⟨"reject", "b"⟩])
      (.leaf (.element "ros_action_handle_goal_response" [⟨"accept", "c"⟩, ⟨"reject", "d"⟩])) .nil)
    .nil)

/-- A skill without a name. -/
def namelessSkill : Document := ofForest none (.leaf (.element "s" []))

theorem canonicalize_error_iff_nested :
    Document.parse ("<s name=\"ASkill\">" ++
      "<ros_action_handle_goal_response accept=\"a\" reject=\"b\">" ++
      "<ros_action_handle_goal_response accept=\"c\" reject=\"d\"/>" ++
      "</ros_action_handle_goal_response></s>") = .ok nestedHandlers ∧
    (∀ e, (canonicalize nestedHandlers).result ≠ .error e) ∧
    Document.parse "<s/>" = .ok namelessSkill ∧
    (canonicalize namelessSkill).result = .error .missingRootName := by
  have hnested : Document.parse ("<s name=\"ASkill\">" ++
      "<ros_action_handle_goal_response accept=\"a\" reject=\"b\">" ++
      "<ros_action_handle_goal_response accept=\"c\" reject=\"d\"/>" ++
      "</ros_action_handle_goal_response></s>") = .ok nestedHandlers := by decide +kernel
  have hname : nestedHandlers.attribute? nestedHandlers.root "name" = some "ASkill" := by
    decide +kernel
  have hnameless : Document.parse "<s/>" = .ok namelessSkill := by decide +kernel
  have hnone : namelessSkill.attribute? namelessSkill.root "name" = none := by decide +kernel
  refine ⟨hnested, fun e he => ?_, hnameless, ?_⟩
  · rcases ((canonicalize_error_iff hnested).1 e).1 he with ⟨-, hempty⟩ | ⟨name, hn, -, hword, -⟩
    · exact absurd (hempty _ hname) (by decide)
    · rw [hname, Option.some.injEq] at hn
      subst hn
      exact hword (by decide +kernel)
  · refine ((canonicalize_error_iff hnameless).1 _).2 (.inl ⟨rfl, fun name hn => ?_⟩)
    rw [hnone] at hn
    cases hn

end Canonical

end SkillCompiler
