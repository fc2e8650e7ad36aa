import SkillCompiler.Interface.Library
import SkillCompiler.Proofs.Assoc
import SkillCompiler.Proofs.File.Listing
import SkillCompiler.Proofs.File.Written

/-!
# Finding definitions

A definition file is known by the directory of its package and by its stem, a message type by its
first and its last segment. The two keys agree: a file of a package has the key of the message types
that name the package and the file, with the family between them or not. A library holds the first
file with each key (`get?_ofPaths`), so a message type finds the one file below a directory that has
its key (`scan_finds_definition`).
-/

namespace SkillCompiler

/-! ## The key of a message type -/

namespace MessageType

/-- A text that is one segment of a message type. -/
structure IsSegment (text : String) : Prop where
  noSlash : '/' ∉ text.toList
  noColon : ':' ∉ text.toList
  notEmpty : text ≠ ""

instance (text : String) : Decidable (IsSegment text) :=
  decidable_of_iff ('/' ∉ text.toList ∧ ':' ∉ text.toList ∧ text ≠ "")
    ⟨fun ⟨slash, colon, empty⟩ => ⟨slash, colon, empty⟩,
      fun h => ⟨h.noSlash, h.noColon, h.notEmpty⟩⟩

/-- How a message type may be written: the package and the name, with a slash between them, or with
the family between them and slashes or double colons around it. -/
def spellings (package name : String) (family : Family) : List MessageType :=
  [package ++ "/" ++ name, package ++ "/" ++ family.extension ++ "/" ++ name,
    package ++ "::" ++ family.extension ++ "::" ++ name]

variable {package name : String}

theorem segments_append_cons {c : Char} (hc : c = '/' ∨ c = ':') (before after : List Char) :
    segments (String.ofList (before ++ c :: after)) =
      segments (String.ofList before) ++ segments (String.ofList after) := by
  simp only [segments, String.toList_ofList]
  rw [List.splitOnP_append_cons before after (by simpa using hc), List.filter_append,
    List.map_append]

theorem segments_of_isSegment {text : String} (h : IsSegment text) : segments text = [text] := by
  have hfree : ∀ c ∈ text.toList, (c = '/' || c = ':') = false := by
    intro c hc
    have hslash : c ≠ '/' := fun he => h.noSlash (he ▸ hc)
    have hcolon : c ≠ ':' := fun he => h.noColon (he ▸ hc)
    simp [hslash, hcolon]
  rw [segments, List.splitOnP_eq_singleton hfree]
  simp [h.notEmpty]

theorem isSegment_extension (family : Family) : IsSegment family.extension := by
  cases family <;> decide

theorem segments_slash (a b : String) : segments (a ++ "/" ++ b) = segments a ++ segments b := by
  have htext : a ++ "/" ++ b = String.ofList (a.toList ++ '/' :: b.toList) := by
    simp [← String.toList_inj]
  rw [htext, segments_append_cons (.inl rfl), String.ofList_toList, String.ofList_toList]

theorem segments_colons (a b : String) : segments (a ++ "::" ++ b) = segments a ++ segments b := by
  have htext : a ++ "::" ++ b = String.ofList (a.toList ++ ':' :: ([] ++ ':' :: b.toList)) := by
    simp [← String.toList_inj]
  have hnone : segments (String.ofList []) = [] := rfl
  rw [htext, segments_append_cons (.inr rfl), segments_append_cons (.inr rfl), hnone,
    List.nil_append, String.ofList_toList, String.ofList_toList]

/-- What stands between the package and the name does not matter. -/
theorem key_eq {type : MessageType} (between : List String)
    (h : segments type = package :: between ++ [name]) : type.key = package ++ "/" ++ name := by
  rw [key, MessageType.package, MessageType.interface, h, List.getLast?_concat]
  rfl

theorem key_of_mem_spellings (hpackage : IsSegment package) (hname : IsSegment name)
    (family : Family) :
    ∀ type ∈ spellings package name family, type.key = package ++ "/" ++ name := by
  have hp := segments_of_isSegment hpackage
  have hn := segments_of_isSegment hname
  have he := segments_of_isSegment (isSegment_extension family)
  simp only [spellings, List.forall_mem_cons]
  refine ⟨key_eq [] ?_, key_eq [family.extension] ?_, key_eq [family.extension] ?_, nofun⟩
  · rw [segments_slash, hp, hn, List.cons_append]
  · rw [segments_slash, segments_slash, hp, he, hn]
    rfl
  · rw [segments_colons, segments_colons, hp, he, hn]
    rfl

end MessageType

namespace Library

open SkillCompiler.Path (IsName EndsWith)

variable {package name : String} {family : Family}

/-! ## The key of a file -/

/-- The name of a definition file. -/
def fileName (name : String) (family : Family) : String := name ++ "." ++ family.extension

/-- Where the directory of a package holds a definition: in the directory of its family, or right
inside. -/
def places (dir : Path) (name : String) (family : Family) : List Path :=
  [dir ++ "/" ++ family.extension ++ "/" ++ fileName name family,
    dir ++ "/" ++ fileName name family]

theorem ofExtension?_extension (family : Family) :
    Family.ofExtension? family.extension = some family := by
  cases family <;> rfl

theorem isName_extension (family : Family) : IsName family.extension := by
  cases family <;> decide

theorem isName_fileName (h : '/' ∉ name.toList) (family : Family) :
    IsName (fileName name family) := by
  have hletter : ∃ c ∈ family.extension.toList, c ≠ '.' := by
    cases family
    · exact ⟨'s', by decide, by decide⟩
    · exact ⟨'m', by decide, by decide⟩
    · exact ⟨'a', by decide, by decide⟩
  obtain ⟨hvoid, hup⟩ := Path.isName_append (name ++ ".") hletter
  rw [Bool.or_eq_true, not_or, decide_eq_true_eq, String.isEmpty_iff] at hvoid
  refine ⟨?_, hvoid.1, hvoid.2, hup⟩
  simp [fileName, h, (isName_extension family).noSlash]

/-- The package of a file is the directory it is in, or the one above that of its family. -/
theorem keyOf?_slash {dir : Path} {dirName : String} (hslash : '/' ∉ name.toList)
    (hname : name ≠ "") (hdirName : IsName dirName) (hdir : EndsWith dir dirName) :
    keyOf? (dir ++ "/" ++ fileName name family) =
      (if dirName = family.extension then dir.parent?.bind Path.fileName? else some dirName).map
        fun package => package ++ "/" ++ name := by
  have hfile := isName_fileName hslash family
  have hfileName := Path.fileName?_of_endsWith hfile (Path.endsWith_slash dir hfile.noSlash)
  have hdot : '.' ∉ family.extension.toList := by cases family <;> decide
  -- The name may have dots of its own, but the last one is that of the extension.
  have hcut : Path.splitName (fileName name family) = (name, some family.extension) :=
    Path.splitName_append hname hdot
  have hparent := Path.parent?_slash hdirName hdir hfile
  have hdirFile := Path.fileName?_of_endsWith hdirName hdir
  simp only [keyOf?, Path.extension?, Path.stem?, hfileName, hcut, hparent, hdirFile,
    ofExtension?_extension, Option.bind_some, Option.map_some, bind]
  split
  · cases dir.parent?.bind Path.fileName? <;> rfl
  · rfl

theorem keyOf?_of_mem_places {dir : Path} (hslash : '/' ∉ name.toList) (hname : name ≠ "")
    (hpackage : IsName package) (hfamily : package ≠ family.extension)
    (hdir : EndsWith dir package) :
    ∀ path ∈ places dir name family, keyOf? path = some (package ++ "/" ++ name) := by
  have hext := isName_extension family
  have hfamilyDir := Path.endsWith_slash dir hext.noSlash
  have hparent := Path.parent?_slash hpackage hdir hext
  simp only [places, List.forall_mem_cons]
  refine ⟨?_, ?_, nofun⟩
  · rw [keyOf?_slash hslash hname hext hfamilyDir, if_pos rfl, hparent, Option.bind_some,
      Path.fileName?_of_endsWith hpackage hdir, Option.map_some]
  · rw [keyOf?_slash hslash hname hpackage hdir, if_neg hfamily, Option.map_some]

/-! ## What a library holds -/

theorem get?_keyed (key : String) :
    ∀ paths : List Path,
      Assoc.get? (keyed paths) key = paths.find? fun path => keyOf? path = some key
  | [] => rfl
  | path :: paths => by
    have ih := get?_keyed key paths
    rw [keyed] at ih ⊢
    rw [List.filterMap_cons, List.find?_cons]
    cases hkey : keyOf? path with
    | none => simpa using ih
    | some other =>
      rw [Option.map_some, Assoc.get?_cons, ih]
      by_cases h : other = key <;> simp [h]

/-- The first file with a key counts. -/
theorem get?_ofPaths (paths : List Path) (key : String) :
    Assoc.get? (ofPaths paths) key = paths.find? fun path => keyOf? path = some key := by
  rw [← get?_keyed]
  exact Assoc.get?_foldl_insertNew Prod.fst Prod.snd key (keyed paths) []

/-- A file that is the only one with its key is found by it. -/
theorem get?_ofPaths_of_only {paths : List Path} {path : Path} {key : String} (hmem : path ∈ paths)
    (hkey : keyOf? path = some key)
    (honly : ∀ other ∈ paths, keyOf? other = some key → other = path) :
    Assoc.get? (ofPaths paths) key = some path := by
  rw [get?_ofPaths]
  cases hfind : paths.find? fun path => keyOf? path = some key with
  | none =>
    have hnone := List.find?_eq_none.1 hfind path hmem
    simp [hkey] at hnone
  | some found =>
    have hfound := List.find?_some hfind
    rw [decide_eq_true_eq] at hfound
    rw [honly found (List.mem_of_find?_eq_some hfind) hfound]

theorem result_scan {tree : FileTree} {root : Path} {paths : List Path}
    (h : tree.filesBelow root = .ok paths) : (scan tree root).result = .ok (ofPaths paths) := by
  rw [scan, h]
  rfl

/-- What a message type gets that a library has a readable file for. -/
theorem result_definition {library : Library} {tree : FileTree} {type : MessageType} {path : Path}
    {text : String} (hpath : Assoc.get? library type.key = some path)
    (hread : tree.readText path = .ok text) :
    (library.definition tree type).result =
      ((Definition.parse text).map some).mapError fun e =>
        .invalidDefinition path e.line e.message := by
  have hfile : ((tree.readText path).mapError (CompileError.file path)) = .ok text := by
    rw [hread]
    rfl
  rw [definition, hpath]
  dsimp only
  rw [Attempt.result_bind, Attempt.result_ofExcept, hfile, Except.ok_bind, Attempt.result_bind,
    Attempt.result_ofExcept]
  cases Definition.parse text <;> rfl

/-- A tree with just one file below a directory that has a key, and the text in that file. -/
structure HoldsOne (tree : FileTree) (root : Path) (key : String) (path : Path) (text : String) :
    Prop where
  below : ∃ names : List String, (∀ name ∈ names, IsName name) ∧ path = names.foldl Path.join root
  reads : tree.readText path = .ok text
  hasKey : keyOf? path = some key
  only : ∃ files, tree.filesBelow root = .ok files ∧
    ∀ other ∈ files, keyOf? other = some key → other = path

theorem HoldsOne.exists_scan {tree : FileTree} {root path : Path} {key text : String}
    (h : HoldsOne tree root key path text) :
    ∃ library, (scan tree root).result = .ok library ∧ Assoc.get? library key = some path := by
  obtain ⟨names, hnames, hpath⟩ := h.below
  obtain ⟨files, hfiles, honly⟩ := h.only
  have hmem : path ∈ files := by
    rw [hpath]
    exact FileTree.mem_filesBelow hfiles hnames (hpath ▸ h.reads)
  exact ⟨ofPaths files, result_scan hfiles, get?_ofPaths_of_only hmem h.hasKey honly⟩

/-- The files of a package have the key of the message types that name them, so after a directory
was scanned that holds one file with this key, each of these message types gets what the file says:
the definition it holds, or an error at the line that is none. -/
theorem scan_finds_definition (hpackage : MessageType.IsSegment package)
    (hname : MessageType.IsSegment name) (hdot : package ≠ ".") (hup : package ≠ "..")
    (hfamily : package ≠ family.extension) :
    (∀ dir : Path, ∀ packageDir ∈ [dir ++ "/" ++ package, dir.join package],
      ∀ path ∈ places packageDir name family, keyOf? path = some (package ++ "/" ++ name)) ∧
    (∀ type ∈ MessageType.spellings package name family, type.key = package ++ "/" ++ name) ∧
    ∀ (tree : FileTree) (root path : Path) (text : String),
      HoldsOne tree root (package ++ "/" ++ name) path text →
        ∃ library, (scan tree root).result = .ok library ∧
          ∀ type ∈ MessageType.spellings package name family,
            (library.definition tree type).result =
              ((Definition.parse text).map some).mapError fun e =>
                .invalidDefinition path e.line e.message := by
  have hisName : IsName package := ⟨hpackage.noSlash, hpackage.notEmpty, hdot, hup⟩
  have hkey := MessageType.key_of_mem_spellings hpackage hname family
  refine ⟨fun dir packageDir hdir => ?_, hkey, fun tree root path text hone => ?_⟩
  · have hends : EndsWith packageDir package := by
      simp only [List.mem_cons, List.not_mem_nil, or_false] at hdir
      rcases hdir with rfl | rfl
      · exact Path.endsWith_slash dir hpackage.noSlash
      · exact Path.endsWith_join dir hisName
    exact keyOf?_of_mem_places hname.noSlash hname.notEmpty hisName hfamily hends
  · obtain ⟨library, hscan, hget⟩ := hone.exists_scan
    refine ⟨library, hscan, fun type htype => ?_⟩
    rw [← hkey type htype] at hget
    exact result_definition hget hone.reads

/-- A service whose name has a dot in it, a message of the same package and a file that is no
definition. -/
def navTree : FileTree where
  nodes := [(["nav"], .directory), (["nav", "srv"], .directory),
    (["nav", "srv", "Go.To.srv"], .file "bool ok".toUTF8), (["nav", "Go.msg"], .file "".toUTF8),
    (["nav", "Go.To"], .file "".toUTF8)]
  home := []

theorem scan_finds_definition_nav :
    keyOf? "lib//nav/srv/Go.To.srv" = some "nav/Go.To" ∧
    keyOf? "nav/Go.To.srv" = some "nav/Go.To" ∧
    MessageType.key "nav::srv::Go.To" = "nav/Go.To" ∧
    HoldsOne navTree "." "nav/Go.To" "./nav/srv/Go.To.srv" "bool ok" ∧
    ∃ library, (scan navTree ".").result = .ok library ∧
      (library.definition navTree "nav/srv/Go.To").result = .ok (some ⟨[[⟨"bool", "ok"⟩]]⟩) ∧
      (library.definition navTree "nav::srv::Go.To").result = .ok (some ⟨[[⟨"bool", "ok"⟩]]⟩) := by
  obtain ⟨hfiles, htypes, hfind⟩ := @scan_finds_definition "nav" "Go.To" .service (by decide)
    (by decide) (by decide) (by decide) (by decide)
  have hone : HoldsOne navTree "." "nav/Go.To" "./nav/srv/Go.To.srv" "bool ok" := {
    below := ⟨["nav", "srv", "Go.To.srv"], by decide, by decide⟩
    reads := FileTree.readText_of_fileAt? rfl rfl
    hasKey := by decide
    only := ⟨["./nav/srv/Go.To.srv", "./nav/Go.msg", "./nav/Go.To"], rfl, by decide⟩ }
  obtain ⟨library, hscan, hdefinition⟩ := hfind navTree "." _ _ hone
  have hparse : Definition.parse "bool ok" = .ok ⟨[[⟨"bool", "ok"⟩]]⟩ := by cbv
  rw [hparse] at hdefinition
  refine ⟨hfiles "lib/" _ List.mem_cons_self _ List.mem_cons_self,
    hfiles "" _ (List.mem_cons_of_mem _ List.mem_cons_self) _
      (List.mem_cons_of_mem _ List.mem_cons_self),
    htypes _ (by decide), hone, library, hscan, hdefinition _ (by decide),
    hdefinition _ (by decide)⟩

end Library

end SkillCompiler
