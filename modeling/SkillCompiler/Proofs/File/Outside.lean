import SkillCompiler.Proofs.File.Location
import SkillCompiler.Proofs.File.Written

/-!
# Files outside a directory

Work that writes to paths below a directory leaves all files `outside` it as they are, also if it
fails half-way. This holds of trees without links (`apart`); where there are links, a path below a
directory may lead anywhere.
-/

namespace SkillCompiler

open SkillCompiler.Path

namespace FileTree

variable {tree : FileTree}

/-- The working directory, and the files that are not where a path leads or below it. -/
def outside (dir : Path) (tree : FileTree) : Location × (Location → Option ByteArray) :=
  (tree.home, fun l => if (locate tree.home dir).isPrefixOf l then none else tree.fileAt? l)

theorem outside_eq {tree' : FileTree} {dir : Path} (hhome : tree'.home = tree.home)
    (h : ∀ l, ¬ locate tree.home dir <+: l → tree'.fileAt? l = tree.fileAt? l) :
    outside dir tree' = outside dir tree := by
  unfold outside
  rw [hhome]
  congr 1
  funext l
  by_cases hl : locate tree.home dir <+: l
  · rw [if_pos (List.isPrefixOf_iff_prefix.2 hl), if_pos (List.isPrefixOf_iff_prefix.2 hl)]
  · rw [if_neg (mt List.isPrefixOf_iff_prefix.1 hl), if_neg (mt List.isPrefixOf_iff_prefix.1 hl),
      h l hl]

/-- Files that are put below a directory do not matter outside it. -/
theorem Puts.outside_eq {tree' : FileTree} {entries : List (Location × ByteArray)}
    (h : Puts tree tree' entries) {dir : Path}
    (hbelow : ∀ entry ∈ entries, locate tree.home dir <+: entry.1) :
    outside dir tree' = outside dir tree := by
  refine FileTree.outside_eq h.home fun l hl => h.fileAt?_of_notMem fun hmem => ?_
  obtain ⟨entry, hentry, rfl⟩ := List.mem_map.1 hmem
  exact hl (hbelow entry hentry)

open Classical in
/-- The files outside a directory, if there are no links. -/
noncomputable def apart (dir : Path) (tree : FileTree) :
    Option (Location × (Location → Option ByteArray)) :=
  if tree.LinkFree then some (tree.outside dir) else none

theorem Puts.apart_eq {tree' : FileTree} {entries : List (Location × ByteArray)}
    (h : Puts tree tree' entries) {dir : Path}
    (hbelow : tree.LinkFree → ∀ entry ∈ entries, locate tree.home dir <+: entry.1) :
    apart dir tree' = apart dir tree := by
  have hfree : tree'.LinkFree ↔ tree.LinkFree := forall_congr' fun l => by rw [h.link]
  unfold apart
  by_cases hlinks : tree.LinkFree
  · rw [if_pos hlinks, if_pos (hfree.2 hlinks), h.outside_eq (hbelow hlinks)]
  · rw [if_neg hlinks, if_neg (mt hfree.1 hlinks)]

theorem LinkFree.outside_eq (hfree : tree.LinkFree) {tree' : FileTree} {dir : Path}
    (h : apart dir tree' = apart dir tree) : outside dir tree' = outside dir tree := by
  unfold apart at h
  rw [if_pos hfree] at h
  split at h
  · exact Option.some.inj h
  · cases h

end FileTree

namespace FileAction

open FileTree

variable {α γ : Type}

/-- Work on files that does not change a part of the tree, however it ends. -/
def Keeps (part : FileTree → γ) (x : FileAction α) : Prop :=
  ∀ tree, part (x.run tree).2 = part tree

theorem keeps_makeDirectories (dir path : Path) : Keeps (apart dir) (makeDirectories path) :=
  fun tree => (putsNothing_makeDirectories path tree).apart_eq (by simp)

theorem keeps_writeText {dir path : Path} (h : IsBelow dir path) (text : String) :
    Keeps (apart dir) (writeText path text) := by
  intro tree
  rcases run_writeBytes path text.toUTF8 tree with
    ⟨fault, hrun⟩ | ⟨location, hpath, hnot, hlink, hrun⟩
  · rw [writeText, hrun]
  · rw [writeText, hrun]
    refine (puts_file _ hnot hlink).apart_eq fun hfree entry hentry => ?_
    rw [List.mem_singleton] at hentry
    rw [hentry, hfree.eq_of_resolve hpath]
    exact h tree.home

end FileAction

end SkillCompiler
