import SkillCompiler.Proofs.Canonical.Writable
import SkillCompiler.Proofs.Document.Traversal
import SkillCompiler.Proofs.File.Location
import SkillCompiler.Synthesis.Artifact

/-!
# The class of a skill

The class is the piece of a root name that ends with the first `Skill`. A statechart keeps the class
of the skill that it is made from (`skillClass?_of_canonicalize`). All files of a skill are named
after the class, which may be any text, so where they lie depends on it (`isBelow_outputPath`,
`isConfined_className_iff`).
-/

namespace SkillCompiler

open SkillCompiler.Path

namespace SkillNames

variable {root : String} {names : SkillNames}

/-- The class in a root name, which ends with the first `Skill`. -/
def class? (root : String) : Option String :=
  (Text.cut? skillWord.toList root.toList).map fun (before, _) => String.ofList before ++ skillWord

theorem exists_of_splitRoot {skill skillType : String}
    (h : splitRoot root = .ok (skill, skillType)) :
    Text.cut? skillWord.toList root.toList = some (skill.toList, skillType.toList) := by
  unfold splitRoot at h
  split at h
  · cases h
  · split at h
    · rename_i before after hcut
      cases h
      simpa using hcut
    · cases h

theorem class?_of_splitRoot {skill skillType : String}
    (h : splitRoot root = .ok (skill, skillType)) : class? root = some (skill ++ skillWord) := by
  rw [class?, exists_of_splitRoot h]
  simp

theorem class?_of_ofRoot (h : ofRoot root = .ok names) : class? root = some names.className := by
  unfold ofRoot at h
  obtain ⟨⟨skill, skillType⟩, hsplit, h⟩ := exists_of_bind_eq_ok h
  rw [class?_of_splitRoot hsplit]
  dsimp only at h
  split at h
  · cases h
  · cases h
    rfl

theorem splitRoot_of_cut? {before after : List Char}
    (h : Text.cut? skillWord.toList root.toList = some (before, after)) :
    splitRoot root = .ok (String.ofList before, String.ofList after) := by
  have hne : root.isEmpty = false := by
    rw [Bool.eq_false_iff, Ne, String.isEmpty_iff]
    rintro rfl
    have hnone : Text.cut? skillWord.toList "".toList = none := by decide
    rw [hnone] at h
    cases h
  rw [splitRoot, hne, if_neg Bool.false_ne_true, h]

/-- A name and the name of the state machine that is made from it are cut at the same place. -/
theorem exists_of_withKind {kind : SkillKind} (h : withKind root kind = .ok names) :
    (∃ skillType, splitRoot root = .ok (names.skill, skillType)) ∧
      splitRoot names.machine = .ok (names.skill, kind.name) ∧ names.skillType = kind.name := by
  unfold withKind at h
  obtain ⟨⟨skill, skillType⟩, hsplit, h⟩ := exists_of_bind_eq_ok h
  cases h
  refine ⟨⟨skillType, hsplit⟩, ?_, rfl⟩
  have hcut := Text.cut?_append_of_cut? (by decide) (exists_of_splitRoot hsplit) kind.name.toList
  rw [← String.toList_append, ← String.toList_append] at hcut
  simpa using splitRoot_of_cut? hcut

/-- The name of the state machine has the class of the name that it is made from. -/
theorem class?_of_withKind {kind : SkillKind} (h : withKind root kind = .ok names) :
    class? root = some names.className ∧ class? names.machine = some names.className := by
  obtain ⟨⟨skillType, hroot⟩, hmachine, -⟩ := exists_of_withKind h
  exact ⟨class?_of_splitRoot hroot, class?_of_splitRoot hmachine⟩

/-- The name of the state machine says all names of the skill, and its kind. -/
theorem ofRoot_of_withKind {kind : SkillKind} (h : withKind root kind = .ok names) :
    ofRoot names.machine = .ok names ∧ names.kind = kind := by
  obtain ⟨-, hmachine, htype⟩ := exists_of_withKind h
  have hname : kind.name.isEmpty = false := by cases kind <;> decide
  refine ⟨?_, ?_⟩
  · rw [ofRoot, hmachine]
    change (if kind.name.isEmpty then _ else Except.ok _) = _
    rw [hname, if_neg Bool.false_ne_true, ← htype]
  · rw [SkillNames.kind, htype]
    cases kind <;> decide

end SkillNames

/-- The class that a document names. -/
def Document.skillClass? (doc : Document) : Option String :=
  (doc.attribute? doc.root "name").bind SkillNames.class?

namespace Canonical

open Document

theorem withKind_of_canonicalize {source : Document} {c : Canonical}
    (h : (canonicalize source).result = .ok c) :
    SkillNames.withKind ((source.attribute? source.root "name").getD "") (kindOf source) =
      .ok c.names := by
  unfold canonicalize at h
  obtain ⟨names, hnames, h⟩ := Attempt.exists_of_result_bind h
  obtain ⟨_, -, h⟩ := Attempt.exists_of_result_bind h
  obtain ⟨doc₁, -, h⟩ := Attempt.exists_of_result_bind h
  obtain ⟨_, -, h⟩ := Attempt.exists_of_result_bind h
  obtain ⟨doc₂, -, h⟩ := Attempt.exists_of_result_bind h
  obtain ⟨doc₃, -, h⟩ := Attempt.exists_of_result_bind h
  obtain ⟨doc₄, -, h⟩ := Attempt.exists_of_result_bind h
  obtain ⟨doc₅, -, h⟩ := Attempt.exists_of_result_bind h
  cases h
  exact hnames

/-- No pass touches the name that the root takes, for the root is below nothing. -/
theorem name_of_canonicalize {source : Document} {c : Canonical} (hs : source.Linked)
    (h : (canonicalize source).result = .ok c) :
    c.document.attribute? c.document.root "name" = some c.names.machine := by
  obtain ⟨content, t, htree, -⟩ := hs.exists_hasTree
  obtain ⟨_, _, _, _, hset, -⟩ := exists_of_canonicalize h
  -- The root takes a name, so it is an element.
  have hcontent := content?_of_node? htree.shows.1
  cases content with
  | element tag as =>
    obtain ⟨t, ht, -⟩ := holds_passes_of_canonicalize ⟨t, htree, rfl⟩ h
    rw [attribute?_of_content? (content?_of_node? ht.shows.1), lookupAttribute_setAttribute,
      if_neg (by decide), lookupAttribute_setAttribute, if_pos rfl]
  | _ =>
    have htag : source.tag? source.root = none := by
      rw [tag?, hcontent]
      rfl
    rw [setAttribute_eq, htag] at hset
    cases hset

/-- The statechart has the class of the skill. -/
theorem skillClass?_of_canonicalize {text : String} {source : Document} {c : Canonical}
    (hparse : Document.parse text = .ok source) (h : (canonicalize source).result = .ok c) :
    source.skillClass? = some c.names.className ∧
      c.document.skillClass? = some c.names.className := by
  obtain ⟨hsource, hmachine⟩ := SkillNames.class?_of_withKind (withKind_of_canonicalize h)
  unfold skillClass?
  rw [name_of_canonicalize (linked_of_parse hparse) h]
  refine ⟨?_, hmachine⟩
  cases hname : source.attribute? source.root "name" with
  | none =>
    have hempty : SkillNames.class? "" = none := by decide
    rw [hname, Option.getD_none, hempty] at hsource
    cases hsource
  | some root =>
    rw [hname] at hsource
    exact hsource

end Canonical

/-! ## Files named after a class -/

theorem isConfined_className_append (names : SkillNames) {ending : String}
    (h : '/' ∉ ending.toList) :
    IsConfined (names.className ++ ending) ↔ IsConfined names.className := by
  have hword : '/' ∉ skillWord.toList := by decide
  have hletter : ∃ c ∈ skillWord.toList, c ≠ '.' := ⟨'S', by decide, by decide⟩
  rw [SkillNames.className, String.append_assoc]
  refine isConfined_append_iff names.skill ?_ hword ?_ hletter
  · rw [String.toList_append, List.mem_append, not_or]
    exact ⟨hword, h⟩
  · obtain ⟨c, hc, hdot⟩ := hletter
    exact ⟨c, by simp [hc], hdot⟩

theorem isBelow_outputPath {names : SkillNames} (h : IsConfined names.className) (dir : Path)
    (kind : ArtifactKind) : IsBelow dir (dir.join (kind.outputPath names)) := by
  intro home
  rw [locate_join]
  have hsrc : ∀ l, locate l "src" = l ++ ["src"] := fun _ => rfl
  have hinclude : ∀ l, locate l "include" = l ++ ["include"] := fun _ => rfl
  have hplain : ∀ path : Path, path.isAbsolute = false → stays 0 path.segments →
      locate home dir <+: locate (locate home dir) path := by
    intro path habsolute hstays
    have hprefix := @prefix_locate path [] habsolute hstays (locate home dir)
    rwa [List.append_nil] at hprefix
  have hfile : ∀ {ending : String}, '/' ∉ ending.toList → IsConfined (names.className ++ ending) :=
    fun hending => (isConfined_className_append names hending).2 h
  cases kind with
  | header =>
    rw [ArtifactKind.outputPath, locate_join, hinclude]
    exact prefix_locate_of_isConfined (hfile (by decide)) _ _
  | source =>
    rw [ArtifactKind.outputPath, locate_join, hsrc]
    exact prefix_locate_of_isConfined (hfile (by decide)) _ _
  | dataModelHeader =>
    rw [ArtifactKind.outputPath, locate_join, hinclude]
    exact prefix_locate_of_isConfined (hfile (by decide)) _ _
  | dataModelSource =>
    rw [ArtifactKind.outputPath, locate_join, hsrc]
    exact prefix_locate_of_isConfined (hfile (by decide)) _ _
  | main => exact hplain "src/main.cpp" (by decide +kernel) (by decide +kernel)
  | cmakeLists => exact hplain "CMakeLists.txt" (by decide +kernel) (by decide +kernel)
  | packageManifest => exact hplain "package.xml" (by decide +kernel) (by decide +kernel)

/-- The statechart of a skill is below every output directory only if the class is confined. -/
theorem isConfined_className_iff (names : SkillNames) :
    IsConfined names.className ↔
      ∀ dir : Path, IsBelow dir ((dir.join "src").join names.canonicalFile) := by
  rw [← isConfined_iff, SkillNames.canonicalFile, isConfined_className_append names (by decide)]

end SkillCompiler
