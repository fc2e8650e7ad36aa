import SkillCompiler.Proofs.File.Tree

/-!
# What is written

Making directories changes no file, and writing a file changes only what stands where its path
leads. `Puts` says this of any number of files: some have been put at their locations, directories
have been made, and nothing else has changed, links neither. Paths that lead somewhere still lead
there (`Puts.resolve`), so a text that was written is read back unless another was written in its
place.
-/

namespace SkillCompiler

namespace FileTree

variable {tree tree' tree'' : FileTree} {entries entries' : List (Location × ByteArray)}
  {location : Location} {path : Path}

def fileAt? (tree : FileTree) (location : Location) : Option ByteArray :=
  match tree.lookup? location with
  | some (.file bytes) => some bytes
  | _ => none

/-- Files have been put at locations, one after another, and perhaps directories where nothing
was. -/
structure Puts (tree tree' : FileTree) (entries : List (Location × ByteArray)) : Prop where
  home : tree'.home = tree.home
  directory : ∀ l, tree.lookup? l = some .directory → tree'.lookup? l = some .directory
  link : ∀ l, tree'.linkAt? l = tree.linkAt? l
  /-- The last file counts that was put at a location. -/
  file : ∀ l, tree'.fileAt? l = (entries.reverse.lookup l).or (tree.fileAt? l)

theorem Puts.refl (tree : FileTree) : Puts tree tree [] :=
  ⟨rfl, fun _ h => h, fun _ => rfl, fun _ => rfl⟩

theorem Puts.trans (h : Puts tree tree' entries) (h' : Puts tree' tree'' entries') :
    Puts tree tree'' (entries ++ entries') where
  home := h'.home.trans h.home
  directory l hl := h'.directory l (h.directory l hl)
  link l := (h'.link l).trans (h.link l)
  file l := by rw [h'.file, h.file, List.reverse_append, List.lookup_append, Option.or_assoc]

theorem Puts.fileAt?_of_notMem (h : Puts tree tree' entries) {l : Location}
    (hl : l ∉ entries.map Prod.fst) : tree'.fileAt? l = tree.fileAt? l := by
  have hnone : entries.reverse.lookup l = none := by
    rw [List.lookup_eq_none_iff]
    intro entry hentry
    rw [bne_iff_ne]
    rintro rfl
    exact hl (List.mem_map_of_mem (List.mem_reverse.1 hentry))
  rw [h.file, hnone, Option.none_or]

/-- Where only one file was put, it is. -/
theorem Puts.fileAt?_of_mem (h : Puts tree tree' entries) (hnodup : (entries.map Prod.fst).Nodup)
    {entry : Location × ByteArray} (hentry : entry ∈ entries) :
    tree'.fileAt? entry.1 = some entry.2 := by
  obtain ⟨front, back, rfl⟩ := List.append_of_mem hentry
  have hsome : (front ++ entry :: back).reverse.lookup entry.1 = some entry.2 := by
    refine List.lookup_eq_some_iff.2 ⟨back.reverse, front.reverse, by simp, fun other hother => ?_⟩
    rw [List.map_append, List.map_cons, List.nodup_append, List.nodup_cons] at hnodup
    rw [bne_iff_ne]
    intro heq
    exact hnodup.2.1.1 (heq ▸ List.mem_map_of_mem (List.mem_reverse.1 hother))
  rw [h.file, hsome, Option.some_or]

theorem Puts.resolve (h : Puts tree tree' entries) (hpath : tree.resolve path = .ok location) :
    tree'.resolve path = .ok location :=
  resolve_of_directories h.directory h.link h.home hpath

/-- What is no link changes no links, unless it takes the place of one. -/
theorem linkAt?_put (hne : location ≠ []) (hnone : tree.linkAt? location = none) {node : FileNode}
    (hnode : node.isLink = false) (l : Location) :
    linkAt? { tree with nodes := put location node tree.nodes } l = tree.linkAt? l := by
  unfold linkAt? at hnone ⊢
  rw [lookup?_put tree hne]
  by_cases hl : l = location
  · rw [if_pos hl, hl, hnone]
    simp [hnode]
  · rw [if_neg hl]

theorem puts_directory (h : tree.lookup? location = none) :
    Puts tree { tree with nodes := put location .directory tree.nodes } [] := by
  have hne : location ≠ [] := by
    rintro rfl
    cases h
  refine ⟨rfl, fun l hl => ?_, linkAt?_put hne ?_ rfl, fun l => ?_⟩
  · rw [lookup?_put tree hne]
    split
    · rfl
    · exact hl
  · rw [linkAt?, h, Option.filter_none]
  · unfold fileAt?
    rw [lookup?_put tree hne]
    by_cases hl : l = location
    · rw [if_pos hl, hl, h]
      rfl
    · rw [if_neg hl]
      rfl

theorem puts_file (bytes : ByteArray) (h : tree.lookup? location ≠ some .directory)
    (hlink : tree.linkAt? location = none) :
    Puts tree { tree with nodes := put location (.file bytes) tree.nodes }
      [(location, bytes)] := by
  have hne : location ≠ [] := by
    rintro rfl
    exact h rfl
  refine ⟨rfl, fun l hl => ?_, linkAt?_put hne hlink rfl, fun l => ?_⟩
  · rw [lookup?_put tree hne, if_neg, hl]
    rintro rfl
    exact h hl
  · unfold fileAt?
    rw [lookup?_put tree hne]
    by_cases hl : l = location
    · simp [hl]
    · rw [if_neg hl, List.reverse_singleton, List.lookup_cons, beq_false_of_ne hl]
      rfl

/-- A text is read from its bytes. -/
theorem readText_of_fileAt? {text : String} (hpath : tree.resolve path = .ok location)
    (hfile : tree.fileAt? location = some text.toUTF8) : tree.readText path = .ok text := by
  have hlookup : tree.lookup? location = some (.file text.toUTF8) := by
    unfold fileAt? at hfile
    split at hfile
    · rename_i heq
      rw [heq, Option.some.inj hfile]
    · cases hfile
  have hfind : tree.find path = .ok (.file text.toUTF8) := by
    unfold find
    refine (bind_eq_of_ok hpath).trans ?_
    rw [hlookup]
  -- The bytes of a text are valid, so decoding them cannot fail.
  have hdecode : String.fromUTF8? text.toUTF8 = some text := dif_pos text.isValidUTF8
  unfold readText
  refine (bind_eq_of_ok hfind).trans ?_
  simp only [hdecode]

end FileTree

namespace FileAction

open FileTree

variable {α β : Type} {x : FileAction α}

/-! ## Directories -/

/-- Work on files that may make directories and changes nothing else, however it ends. -/
def PutsNothing (x : FileAction α) : Prop := ∀ tree, Puts tree (x.run tree).2 []

theorem PutsNothing.pure (a : α) : PutsNothing (Pure.pure a : FileAction α) := .refl

theorem PutsNothing.throw (fault : FileFault) :
    PutsNothing (MonadExcept.throw fault : FileAction α) := .refl

theorem PutsNothing.get : PutsNothing (MonadState.get : FileAction FileTree) := .refl

theorem PutsNothing.bind {f : α → FileAction β} (hx : PutsNothing x)
    (hf : ∀ a, PutsNothing (f a)) : PutsNothing (x >>= f) := by
  intro tree
  have h := hx tree
  change Puts tree (ExceptT.bindCont f (x.run tree).1 (x.run tree).2).2 []
  rcases hrun : x.run tree with ⟨fault | a, tree'⟩ <;> rw [hrun] at h
  · exact h
  · exact h.trans (hf a tree')

theorem PutsNothing.tryCatch {handle : FileFault → FileAction α} (hx : PutsNothing x)
    (hhandle : ∀ fault, PutsNothing (handle fault)) :
    PutsNothing (MonadExcept.tryCatch x handle) := by
  intro tree
  have h := hx tree
  change Puts tree (ExceptT.run (ExceptT.tryCatch x handle) tree).2 []
  unfold ExceptT.tryCatch
  simp only [Bind.bind, StateT.bind, ExceptT.run_mk]
  rw [show x tree = x.run tree from rfl]
  rcases hrun : x.run tree with ⟨fault | a, tree'⟩ <;> rw [hrun] at h
  · exact h.trans (hhandle fault tree')
  · exact h

theorem run_get_bind (f : FileTree → FileAction α) (tree : FileTree) :
    (get >>= f).run tree = (f tree).run tree := rfl

theorem run_mk_bind (result : Except FileFault α) (f : α → FileAction β) (tree : FileTree) :
    (ExceptT.mk (pure result) >>= f : FileAction β).run tree =
      match result with
      | .ok a => (f a).run tree
      | .error fault => (.error fault, tree) := by
  cases result <;> rfl

/-- A directory is put only where nothing stands. -/
theorem putsNothing_makeDirectory (path : Path) : PutsNothing (makeDirectory path) := by
  intro tree
  unfold makeDirectory
  rw [run_get_bind]
  dsimp only
  rw [run_mk_bind]
  rcases tree.resolveEntry _ with fault | location
  · exact .refl tree
  · dsimp only
    rcases hlookup : tree.lookup? location with _ | node
    · exact puts_directory hlookup
    · exact .refl tree

theorem putsNothing_makeChain : ∀ paths : List Path, PutsNothing (makeChain paths)
  | [] => .throw _
  | path :: parents => by
    have hunless : ∀ fault, PutsNothing (unlessDirectory path fault) := fun fault => by
      refine .bind .get fun tree => ?_
      split
      · exact .pure _
      · exact .throw _
    unfold makeChain
    split
    · exact .pure _
    · refine .tryCatch (putsNothing_makeDirectory path) fun fault => ?_
      split
      · exact .bind (putsNothing_makeChain parents) fun _ =>
          .tryCatch (putsNothing_makeDirectory path) hunless
      · exact hunless _

theorem putsNothing_makeDirectories (path : Path) : PutsNothing (makeDirectories path) :=
  putsNothing_makeChain _

/-! ## Files -/

/-- A file is put where its path leads, or nothing is done. -/
theorem run_writeBytes (path : Path) (bytes : ByteArray) (tree : FileTree) :
    (∃ fault, (writeBytes path bytes).run tree = (.error fault, tree)) ∨
    ∃ location, tree.resolve path = .ok location ∧ tree.lookup? location ≠ some .directory ∧
      tree.linkAt? location = none ∧ (writeBytes path bytes).run tree =
        (.ok (), { tree with nodes := put location (.file bytes) tree.nodes }) := by
  unfold writeBytes
  rw [run_get_bind, run_mk_bind]
  rcases tree.resolve path with fault | location
  · exact .inl ⟨fault, rfl⟩
  · dsimp only
    rcases hlookup : tree.lookup? location with _ | _ | old | target | file
    · exact .inr ⟨location, rfl, by simp [hlookup], by simp [linkAt?, hlookup], rfl⟩
    · exact .inl ⟨.isADirectory, rfl⟩
    · exact .inr ⟨location, rfl, by simp [hlookup],
        by simp [linkAt?, hlookup, FileNode.isLink], rfl⟩
    · exact .inl ⟨.notFound, rfl⟩
    · exact .inl ⟨.notFound, rfl⟩

/-- What writing a text that succeeds has done. -/
theorem exists_of_writeText {path : Path} {text : String} {tree tree' : FileTree}
    (h : (writeText path text).run tree = (.ok (), tree')) :
    ∃ location, tree.resolve path = .ok location ∧
      Puts tree tree' [(location, text.toUTF8)] := by
  rcases run_writeBytes path text.toUTF8 tree with
    ⟨fault, hrun⟩ | ⟨location, hpath, hnot, hlink, hrun⟩
  · cases hrun.symm.trans h
  · cases hrun.symm.trans h
    exact ⟨location, hpath, puts_file _ hnot hlink⟩

end FileAction

/-- A text that was written is read back. -/
theorem FileTree.readText_of_writeText {path : Path} {text : String} {tree tree' : FileTree}
    (h : (FileAction.writeText path text).run tree = (.ok (), tree')) :
    tree'.readText path = .ok text := by
  obtain ⟨location, hpath, hputs⟩ := FileAction.exists_of_writeText h
  exact readText_of_fileAt? (hputs.resolve hpath)
    (hputs.fileAt?_of_mem (by simp) (List.mem_singleton_self _))

end SkillCompiler
