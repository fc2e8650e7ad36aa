import SkillCompiler.Proofs.File.Name

/-!
# Files below a directory

A search goes down from directory to directory, as a path of names does. So a file that can be read
by names below a directory is among the files that a search of the directory finds, links on the way
or not (`mem_filesBelow`).
-/

namespace SkillCompiler

/-- What a loop makes of an item is in what it gives. -/
theorem exists_of_mem_mapM {ε α β : Type} {f : α → Except ε β} :
    ∀ {l : List α} {bs : List β} {a : α}, l.mapM f = .ok bs → a ∈ l → ∃ b ∈ bs, f a = .ok b
  | x :: l, bs, a, h, ha => by
    rw [List.mapM_cons] at h
    obtain ⟨y, hy, h⟩ := exists_of_bind_eq_ok h
    obtain ⟨ys, hys, h⟩ := exists_of_bind_eq_ok h
    cases h
    rcases List.mem_cons.1 ha with rfl | ha
    · exact ⟨y, List.mem_cons_self, hy⟩
    · obtain ⟨b, hb, hf⟩ := exists_of_mem_mapM hys ha
      exact ⟨b, List.mem_cons_of_mem _ hb, hf⟩

namespace FileTree

open SkillCompiler.Path (IsName)

variable {tree : FileTree} {location found : Location} {name : String}

theorem namesBelow?_append (names : List String) :
    ∀ upper : Location, namesBelow? upper (upper ++ names) = some names
  | [] => by
    cases names <;> rfl
  | name :: upper => by
    rw [List.cons_append, namesBelow?, if_pos rfl, namesBelow?_append names upper]

theorem mem_entries {node : FileNode} (h : tree.lookup? (location ++ [name]) = some node) :
    (name, node) ∈ tree.entries location := by
  unfold lookup? at h
  rw [if_neg (by simp)] at h
  obtain ⟨entry, hentry, hnode⟩ := Option.map_eq_some_iff.1 h
  have hlocation : entry.1 = location ++ [name] := by simpa using List.find?_some hentry
  refine List.mem_filterMap.2 ⟨entry, List.mem_of_find?_eq_some hentry, ?_⟩
  simp only [hlocation, namesBelow?_append, hnode]

theorem exists_of_readText {path : Path} {text : String} (h : tree.readText path = .ok text) :
    ∃ location bytes, tree.resolve path = .ok location ∧
      tree.lookup? location = some (.file bytes) := by
  unfold readText at h
  obtain ⟨node, hfind, h⟩ := exists_of_bind_eq_ok h
  unfold find at hfind
  obtain ⟨location, hresolve, hfind⟩ := exists_of_bind_eq_ok hfind
  split at hfind
  · rename_i found hfound
    cases hfind
    cases node with
    | file bytes => exact ⟨location, bytes, hresolve, hfound⟩
    | directory => cases h
    | symbolicLink target => cases h
    | hardLink file => cases h
  · cases hfind

theorem Way.unique {links : Nat} {segments : List String} {found' : Location}
    (way : tree.Way links location segments found)
    (way' : tree.Way links location segments found') : found = found' :=
  Except.ok.inj (way.follow.symm.trans way'.follow)

/-- Names lead on from where the path before them leads. -/
theorem exists_way_of_names {dir : Path} {names : List String} (hname : IsName name)
    (hnames : ∀ name ∈ names, IsName name) (hdir : tree.resolve dir = .ok location)
    (h : tree.resolve (names.foldl Path.join (dir.join name)) = .ok found) :
    ∃ links, tree.Way links location (name :: names) found := by
  obtain ⟨hcheck, hlocation⟩ := resolve_eq_ok.1 hdir
  obtain ⟨-, way⟩ := resolve_eq_ok.1 h
  have hne : dir ≠ "" := by
    rintro rfl
    cases hcheck
  obtain ⟨habsolute, front, hjoin, hfront⟩ := Path.exists_segments_join hne hname
  obtain ⟨habsolute', hsegments⟩ := Path.segments_foldl_join hnames hname hjoin
  have hstart : tree.startOf (names.foldl Path.join (dir.join name)) = tree.startOf dir := by
    rw [startOf, startOf, habsolute', habsolute]
  rw [hstart, hsegments, hjoin, List.append_assoc, List.singleton_append] at way
  obtain ⟨between, links, hbefore, hafter⟩ := way.exists_between
  refine ⟨links, ?_⟩
  rcases hfront with hfront | hfront
  · rw [hfront] at hlocation
    rwa [hlocation.unique hbefore]
  · -- The empty segment after a slash stays in the directory.
    rw [hfront] at hlocation
    obtain ⟨between', links', hbefore', hlast⟩ := hlocation.exists_between
    rw [hbefore'.unique hbefore] at hlast
    obtain ⟨next, hnext, hsame⟩ := hlast.exists_advance
    obtain ⟨hdirectory, -, hstep⟩ := advance_eq_ok.1 hnext
    have hstay : next = between := hstep
    have hnone : tree.linkAt? next = none := by
      rw [hstay, linkAt?, hdirectory]
      rfl
    rwa [hsame hnone, hstay]

/-- What a search finds at a path: the path itself, or what it finds at the entries of a
directory. -/
theorem exists_of_filesFrom {depth : Nat} {above : List (Location × Path)} {path : Path}
    {files : List Path} (h : tree.filesFrom (depth + 1) above path = .ok files) :
    ∃ location, tree.resolve path = .ok location ∧
      ((tree.lookup? location ≠ some .directory ∧ files = [path]) ∨
        tree.lookup? location = some .directory ∧
          ∀ name node, (name, node) ∈ tree.entries location →
            if node.isFile then path.join name ∈ files
            else ∃ above inner, tree.filesFrom depth above (path.join name) = .ok inner ∧
              inner ⊆ files) := by
  rw [filesFrom] at h
  obtain ⟨location, hlocation, h⟩ := exists_of_bind_eq_ok h
  refine ⟨location, eq_ok_of_mapError_eq_ok hlocation, ?_⟩
  split at h
  · cases h
  · rename_i hdirectory
    split at h
    · cases h
    · obtain ⟨found, hfound, h⟩ := exists_of_bind_eq_ok h
      cases h
      refine .inr ⟨hdirectory, fun name node hentry => ?_⟩
      obtain ⟨inner, hinner, hmade⟩ := exists_of_mem_mapM hfound hentry
      have hsubset : inner ⊆ found.flatten := fun path hpath =>
        List.mem_flatten_of_mem hinner hpath
      dsimp only at hmade
      split at hmade
      · rename_i hfile
        cases hmade
        rw [if_pos hfile]
        exact hsubset (List.mem_singleton_self _)
      · rename_i hfile
        rw [if_neg hfile]
        exact ⟨_, inner, hmade, hsubset⟩
  · rename_i node hne hnode
    cases h
    refine .inl ⟨fun hdirectory => ?_, rfl⟩
    rw [hnode, Option.some.injEq] at hdirectory
    exact hne hdirectory

theorem lookup?_of_linkAt? {node : FileNode} (h : tree.linkAt? location = some node) :
    tree.lookup? location = some node :=
  (Option.filter_eq_some_iff.1 h).1

/-- A way to a file by names starts with an entry of a directory, and ends there if that is a
file. -/
theorem Way.exists_entry {links : Nat} {names : List String} (hname : IsName name)
    (way : tree.Way links location (name :: names) found) {bytes : ByteArray}
    (hfile : tree.lookup? found = some (.file bytes)) :
    tree.lookup? location = some .directory ∧
      ∃ node, tree.lookup? (location ++ [name]) = some node ∧ (node.isFile → names = []) := by
  cases way with
  | on hnext hlink way =>
    obtain ⟨hdirectory, -, rfl⟩ := advance_eq_ok.1 hnext
    rw [hname.step_eq] at way
    refine ⟨hdirectory, ?_⟩
    cases way with
    | done => exact ⟨_, hfile, fun _ => rfl⟩
    | on hnext _ _ => exact ⟨_, (advance_eq_ok.1 hnext).1, nofun⟩
    | symbolic hnext _ _ => exact ⟨_, (advance_eq_ok.1 hnext).1, nofun⟩
    | hard hnext _ => exact ⟨_, (advance_eq_ok.1 hnext).1, nofun⟩
  | symbolic hnext hlink _ =>
    obtain ⟨hdirectory, -, rfl⟩ := advance_eq_ok.1 hnext
    rw [hname.step_eq] at hlink
    exact ⟨hdirectory, _, lookup?_of_linkAt? hlink, nofun⟩
  | hard hnext hlink =>
    obtain ⟨hdirectory, -, rfl⟩ := advance_eq_ok.1 hnext
    rw [hname.step_eq] at hlink
    exact ⟨hdirectory, _, lookup?_of_linkAt? hlink, fun _ => rfl⟩

theorem mem_filesFrom {text : String} :
    ∀ {names : List String} {depth : Nat} {above : List (Location × Path)} {path : Path}
      {files : List Path}, tree.filesFrom depth above path = .ok files →
        (∀ name ∈ names, IsName name) →
        tree.readText (names.foldl Path.join path) = .ok text → names.foldl Path.join path ∈ files
  | _, 0, _, _, _, hfiles, _, _ => by cases hfiles
  | [], depth + 1, above, path, files, hfiles, _, hread => by
    obtain ⟨found, bytes, hfound, hfile⟩ := exists_of_readText hread
    obtain ⟨location, hlocation, ⟨-, rfl⟩ | ⟨hdirectory, -⟩⟩ := exists_of_filesFrom hfiles
    · exact List.mem_singleton_self _
    · cases hlocation.symm.trans hfound
      cases hdirectory.symm.trans hfile
  | name :: names, depth + 1, above, path, files, hfiles, hnames, hread => by
    rw [List.forall_mem_cons] at hnames
    obtain ⟨found, bytes, hfound, hfile⟩ := exists_of_readText hread
    obtain ⟨location, hlocation, hsearch⟩ := exists_of_filesFrom hfiles
    obtain ⟨links, way⟩ := exists_way_of_names hnames.1 hnames.2 hlocation hfound
    obtain ⟨hdirectory, node, hentry, hstop⟩ := way.exists_entry hnames.1 hfile
    rcases hsearch with ⟨hnot, -⟩ | ⟨-, hsearch⟩
    · exact absurd hdirectory hnot
    · have hmade := hsearch name node (mem_entries hentry)
      cases hnode : node.isFile with
      | true =>
        rw [hnode, if_pos rfl] at hmade
        rw [hstop hnode]
        exact hmade
      | false =>
        rw [hnode, if_neg Bool.false_ne_true] at hmade
        obtain ⟨above', inner, hinner, hsubset⟩ := hmade
        exact hsubset (mem_filesFrom hinner hnames.2 hread :)

/-- A file that can be read by names below a directory is found there, under the path of the
directory and these names. -/
theorem mem_filesBelow {root : Path} {files : List Path} {names : List String} {text : String}
    (hfiles : tree.filesBelow root = .ok files) (hnames : ∀ name ∈ names, IsName name)
    (hread : tree.readText (names.foldl Path.join root) = .ok text) :
    names.foldl Path.join root ∈ files :=
  mem_filesFrom hfiles hnames hread

end FileTree

end SkillCompiler
