import SkillCompiler.Program

/-!
# The command line

Takes a picture of the files that a run looks at, runs the program on it, and brings the files that
have changed back to the disk. A symbolic link is in the picture with the path it leads to in the
end. One that leads nowhere is left out, and the names of a file with hard links are files of their
own.
-/

namespace SkillCompiler

namespace Snapshot

/-- Adds what stands at a location. -/
def look (tree : FileTree) (location : Location) : IO FileTree := do
  let path := System.mkFilePath [FileTree.pathOf location]
  let add := fun node => { tree with nodes := FileTree.put location node tree.nodes }
  match ← path.symlinkMetadata.toBaseIO with
  | .error _ => return tree
  | .ok data =>
    match data.type with
    | .dir => return add .directory
    | .symlink =>
      match ← (IO.FS.realPath path).toBaseIO with
      | .error _ => return tree
      | .ok target => return add (.symbolicLink target.toString)
    | _ => return add (.file (← IO.FS.readBinFile path))

/-- Adds what stands at a location and where that leads, if it is a link. -/
def lookThrough (tree : FileTree) (location : Location) : IO (FileTree × Location) := do
  let tree ← look tree location
  match tree.lookup? location with
  | some (.symbolicLink target) =>
    -- There are no more links on the way to the target.
    let target := Path.locate [] target
    let tree ← (List.range target.length).foldlM
      (fun tree n => look tree (target.take (n + 1))) tree
    return (tree, target)
  | _ => return (tree, location)

/-- Adds what stands on the way of a path and where it leads. -/
def visit (tree : FileTree) (path : Path) : IO (FileTree × Location) :=
  path.segments.foldlM (fun (tree, location) segment => lookThrough tree (location.step segment))
    (tree, tree.startOf path)

/-- Adds all that can be reached below a location. -/
def visitBelow (tree : FileTree) (location : Location) : IO FileTree := do
  let mut tree := tree
  let mut seen : List Location := []
  let mut left := [location]
  repeat
    match left with
    | [] => break
    | directory :: rest =>
      left := rest
      let path := System.mkFilePath [FileTree.pathOf directory]
      if !seen.contains directory && (← path.isDir) then
        seen := directory :: seen
        for entry in ← path.readDir do
          let (found, inner) ← lookThrough tree (directory ++ [entry.fileName])
          tree := found
          left := inner :: left
  return tree

/-- Adds the files that a run with some settings reads. -/
def ofSettings (tree : FileTree) (s : Settings) : IO FileTree := do
  let templates := ArtifactKind.all.map fun kind => s.templateDir.join kind.templatePath
  let files := s.input :: (s.interfaceModel.toList ++ s.componentModel.toList ++ templates)
  let tree ← files.foldlM (fun tree path => do return (← visit tree path).1) tree
  s.interfaceDir.toList.foldlM (fun tree path => do
    let (tree, location) ← visit tree path
    visitBelow tree location) tree

/-- The files that a run with a command line reads. -/
def ofArguments (home : Location) (a : Arguments) : IO FileTree := do
  let tree ← a.settingsFile.toList.foldlM (fun tree path => do return (← visit tree path).1)
    (FileTree.empty home)
  match Settings.ofArguments tree a with
  | .ok s => ofSettings tree s
  | .error _ => return tree

/-- Runs the program, and again as long as there is something on the disk where it makes a file or
a directory. Gives the picture it ran on at last. -/
def run (program : FileTree → Outcome) (tree : FileTree) : IO (FileTree × Outcome) := do
  let mut tree := tree
  repeat
    let made := (program tree).files.nodes.filter fun (location, _) =>
      (tree.lookup? location).isNone
    let seen ← made.foldlM (fun tree (location, _) => do
      return (← lookThrough tree location).1) tree
    if seen.nodes.length = tree.nodes.length then break
    tree := seen
  return (tree, program tree)

/-- Brings what has changed in a tree to the disk. -/
def store (before after : FileTree) : IO Unit :=
  after.nodes.forM fun (location, node) => do
    match node, before.lookup? location with
    | .directory, none => IO.FS.createDirAll (FileTree.pathOf location)
    | .file bytes, some (.file old) =>
      if bytes.data != old.data then IO.FS.writeBinFile (FileTree.pathOf location) bytes
    | .file bytes, none => IO.FS.writeBinFile (FileTree.pathOf location) bytes
    | _, _ => pure ()

end Snapshot

namespace Program

/-- The environment variables that the program looks at. -/
def variableNames : List String := logVariable :: ValueFlag.all.filterMap ValueFlag.environmentName?

end Program

end SkillCompiler

open SkillCompiler in
/-- Runs the program on the files of the disk. -/
def main (args : List String) : IO UInt32 := do
  let environment ← Program.variableNames.mapM fun name => do return (name, ← IO.getEnv name)
  let environment := fun name => (environment.find? fun entry => entry.1 = name).bind Prod.snd
  let home := Path.locate [] (← IO.currentDir).toString
  let before ← match Arguments.parse environment args with
    | .ok a => Snapshot.ofArguments home a
    | .error _ => pure (FileTree.empty home)
  let (before, outcome) ← Snapshot.run (Program.run environment args) before
  Snapshot.store before outcome.files
  (← IO.getStdout).putStr outcome.output
  (← IO.getStderr).putStr outcome.complaint
  return outcome.exit.toUInt32
