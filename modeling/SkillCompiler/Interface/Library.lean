import SkillCompiler.Assoc
import SkillCompiler.Document.Load
import SkillCompiler.File.Tree
import SkillCompiler.Interface.Definition
import SkillCompiler.Interface.MessageType

/-!
# Libraries of definitions

A library knows the files that hold interface definitions. A file is known by its package and its
name: the package is the directory it stands in, or the one above if the directory is named for the
family. Files are read when a definition is asked for.
-/

namespace SkillCompiler

/-- Definition files by key. -/
abbrev Library := Assoc Path

namespace Library

/-- The key of a definition file. -/
def keyOf? (path : Path) : Option String := do
  let extension ← path.extension?
  let _ ← Family.ofExtension? extension
  let stem ← path.stem?
  let dir ← path.parent?
  let dirName ← dir.fileName?
  let package ← if dirName = extension then dir.parent?.bind Path.fileName? else some dirName
  return package ++ "/" ++ stem

/-- The definition files among some paths, with their keys. -/
def keyed (paths : List Path) : List (String × Path) :=
  paths.filterMap fun path => (keyOf? path).map (·, path)

/-- The library of some files; the first with a key counts. -/
def ofPaths (paths : List Path) : Library :=
  (keyed paths).foldl (fun library (key, path) => library.insertNew key path) []

/-- The library of the files below a directory. -/
def scan (files : FileTree) (root : Path) : Compile Library := do
  let paths ← Attempt.ofExcept ((files.filesBelow root).mapError .search)
  tell ((keyed paths).map fun (key, path) =>
    .debug .interface "indexed interface definition" [("key", key), ("path", path)])
  let library := ofPaths paths
  note (.debug .interface "scanned interface definitions"
    [("root", root), ("count", toString library.length)])
  return library

/-- Puts a file under the key of a message type. -/
def add (library : Library) (type : MessageType) (path : Path) : Library :=
  library.insert type.key path

/-- The definition of a message type, if the library has a file for it. -/
def definition (library : Library) (files : FileTree) (type : MessageType) :
    Compile (Option Definition) := do
  match Assoc.get? library type.key with
  | none =>
    note (.warn .interface "no interface definition found" [("message_type", type)])
    return none
  | some path =>
    let text ← Attempt.ofExcept ((files.readText path).mapError (.file path))
    let d ← Attempt.ofExcept ((Definition.parse text).mapError fun e =>
      .invalidDefinition path e.line e.message)
    return some d

end Library

end SkillCompiler
