import SkillCompiler.File.Fault
import SkillCompiler.Path

/-!
# File trees

A file tree says what stands at each location, a location being the names on the way down from the
root. A path leads to a location from the root or from the working directory; on the way every
segment has to start from a directory, and links send the path elsewhere. Changes to the tree are
made in `FileAction`, where a change stays also if a later one fails.
-/

namespace SkillCompiler

/-- The names on the way down from the root. -/
abbrev Location := List String

/-- Where a segment leads from a location. -/
def Location.step (location : Location) (segment : String) : Location :=
  if segment.isEmpty || segment = "." then location
  else if segment = ".." then location.dropLast
  else location ++ [segment]

/-- Where a path leads from a working directory, as far as its text says. -/
def Path.locate (home : Location) (path : Path) : Location :=
  path.segments.foldl Location.step (if path.isAbsolute then [] else home)

/-- What stands at a location. -/
inductive FileNode where
  | directory
  | file (bytes : ByteArray)
  | symbolicLink (target : Path)
  /-- Another name for the file at a location. -/
  | hardLink (file : Location)

namespace FileNode

def isLink : FileNode → Bool
  | symbolicLink _ | hardLink _ => true
  | _ => false

/-- Whether a node is a file without following anything. -/
def isFile : FileNode → Bool
  | file _ | hardLink _ => true
  | _ => false

end FileNode

structure FileTree where
  nodes : List (Location × FileNode)
  /-- The working directory. -/
  home : Location

namespace FileTree

/-- A tree with nothing but a working directory. -/
def empty (home : Location) : FileTree :=
  ⟨(List.range home.length).map fun n => (home.take (n + 1), .directory), home⟩

/-- What stands at a location; the root is always a directory. -/
def lookup? (tree : FileTree) (location : Location) : Option FileNode :=
  if location = [] then some .directory
  else (tree.nodes.find? fun entry => entry.1 = location).map Prod.snd

/-- The link that stands at a location. -/
def linkAt? (tree : FileTree) (location : Location) : Option FileNode :=
  (tree.lookup? location).filter FileNode.isLink

/-- Puts something at a location, in place of what was there. -/
def put (location : Location) (node : FileNode) :
    List (Location × FileNode) → List (Location × FileNode)
  | [] => [(location, node)]
  | entry :: rest =>
    if entry.1 = location then (location, node) :: rest else entry :: put location node rest

/-- How many bytes a name may have. -/
def nameLimit : Nat := 255

/-- How many bytes a path may have. -/
def pathLimit : Nat := 4095

/-- How many symbolic links a path may go through. -/
def linkLimit : Nat := 40

/-- Where a segment leads from a location, which has to be a directory. -/
def advance (tree : FileTree) (location : Location) (segment : String) :
    Except FileFault Location :=
  match tree.lookup? location with
  | some .directory =>
    if segment.utf8ByteSize > nameLimit then .error .nameTooLong else .ok (location.step segment)
  | some _ => .error .notADirectory
  | none => .error .notFound

/-- Follows segments from a location, up to a symbolic link. From there `onLink` goes on, with the
segments of the target and those that are left. -/
def followWith (tree : FileTree)
    (onLink : Location → List String → Except FileFault Location) :
    Location → List String → Except FileFault Location
  | location, [] => .ok location
  | location, segment :: rest => do
    let next ← tree.advance location segment
    match tree.linkAt? next with
    | some (.symbolicLink target) =>
      onLink (if target.isAbsolute then [] else next.dropLast) (target.segments ++ rest)
    | some (.hardLink file) => if rest.isEmpty then .ok file else .error .notADirectory
    | _ => tree.followWith onLink next rest

/-- Follows segments from a location through at most so many symbolic links. -/
def follow (tree : FileTree) : (links : Nat) → Location → List String → Except FileFault Location
  | 0 => tree.followWith fun _ _ => .error .tooManyLinks
  | links + 1 => tree.followWith (tree.follow links)

/-- Whether a path can be followed at all. -/
def checkPath (path : Path) : Except FileFault Unit :=
  if '\x00' ∈ path.toList then .error .holdsNul
  else if path.utf8ByteSize > pathLimit then .error .nameTooLong
  else if path.isEmpty then .error .notFound
  else .ok ()

/-- Where a path starts. -/
def startOf (tree : FileTree) (path : Path) : Location :=
  if path.isAbsolute then [] else tree.home

/-- The location a path leads to. Something may stand there or not. -/
def resolve (tree : FileTree) (path : Path) : Except FileFault Location := do
  checkPath path
  tree.follow linkLimit (tree.startOf path) path.segments

/-- The location that a path names: a link there is not followed. -/
def resolveEntry (tree : FileTree) (path : Path) : Except FileFault Location := do
  checkPath path
  let directory ← tree.follow linkLimit (tree.startOf path) path.segments.dropLast
  tree.advance directory (path.segments.getLast?.getD "")

/-- What stands where a path leads. -/
def find (tree : FileTree) (path : Path) : Except FileFault FileNode := do
  match tree.lookup? (← tree.resolve path) with
  | some node => .ok node
  | none => .error .notFound

def isDirectory (tree : FileTree) (path : Path) : Bool :=
  match tree.find path with
  | .ok .directory => true
  | _ => false

def isFile (tree : FileTree) (path : Path) : Bool :=
  match tree.find path with
  | .ok (.file _) => true
  | _ => false

/-- Whether a path names a link. -/
def isLink (tree : FileTree) (path : Path) : Bool :=
  match tree.resolveEntry path with
  | .ok location => (tree.linkAt? location).isSome
  | .error _ => false

/-- The text of a file. -/
def readText (tree : FileTree) (path : Path) : Except FileFault String := do
  match ← tree.find path with
  | .file bytes =>
    match String.fromUTF8? bytes with
    | some text => .ok text
    | none => .error .notText
  | .directory => .error .isADirectory
  -- Only a hard link that names no file leads here.
  | _ => .error .notFound

/-- The names from a location down to one below it. -/
def namesBelow? : (upper lower : Location) → Option (List String)
  | [], lower => some lower
  | _ :: _, [] => none
  | a :: upper, b :: lower => if a = b then namesBelow? upper lower else none

/-- What stands in a directory, each with its name. -/
def entries (tree : FileTree) (directory : Location) : List (String × FileNode) :=
  tree.nodes.filterMap fun (location, node) =>
    match namesBelow? directory location with
    | some [name] => some (name, node)
    | _ => none

/-- The paths of the files at a path and below it, links included. The search is in the directories
`above`, and goes down at most so many more. -/
def filesFrom (tree : FileTree) :
    (depth : Nat) → (above : List (Location × Path)) → Path → Except SearchFault (List Path)
  | 0, _, path => .error (.failed path .tooManyLinks)
  | depth + 1, above, path => do
    let location ← (tree.resolve path).mapError (.failed path)
    match tree.lookup? location with
    | none => .error (.failed path .notFound)
    | some .directory =>
      match above.find? fun directory => directory.1 = location with
      | some directory => .error (.loop path directory.2)
      | none =>
        let found ← (tree.entries location).mapM fun (name, node) =>
          if node.isFile then .ok [path.join name]
          else tree.filesFrom depth ((location, path) :: above) (path.join name)
        return found.flatten
    | some _ => return [path]

/-- The paths of the files at a path and below it, each written as the path itself and the names
on the way down. A search goes through different directories, so it is no deeper than the tree is
large. -/
def filesBelow (tree : FileTree) (path : Path) : Except SearchFault (List Path) :=
  tree.filesFrom (tree.nodes.length + 2) [] path

/-- The path of a location from the root. -/
def pathOf (location : Location) : Path := "/" ++ "/".intercalate location

end FileTree

/-- A change to a file tree that may fail. -/
abbrev FileAction (α : Type) := ExceptT FileFault (StateM FileTree) α

namespace FileAction

/-- Makes one directory. Slashes at the end of its path do not matter. -/
def makeDirectory (path : Path) : FileAction Unit := do
  let tree ← get
  let bare := path.toList.reverse.dropWhile (· = '/')
  let bare := if bare = [] then path else String.ofList bare.reverse
  let location ← ExceptT.mk (pure (tree.resolveEntry bare))
  match tree.lookup? location with
  | some _ => throw .alreadyExists
  | none => set { tree with nodes := FileTree.put location .directory tree.nodes }

/-- Overlooks a failure to make a directory that is there. -/
def unlessDirectory (path : Path) (fault : FileFault) : FileAction Unit := do
  if (← get).isDirectory path then return else throw fault

/-- Makes the first directory of a chain of paths, each followed by its parent. The parent is made
before if it is missing. -/
def makeChain : List Path → FileAction Unit
  | [] => throw .notFound
  | path :: parents =>
    if path.isEmpty then pure ()
    else
      tryCatch (makeDirectory path) fun
        | .notFound => do
          makeChain parents
          tryCatch (makeDirectory path) (unlessDirectory path)
        | fault => unlessDirectory path fault

/-- A path, its parent, the parent of that, and so on. -/
def ancestors (path : Path) : (steps : Nat) → List Path
  | 0 => [path]
  | steps + 1 =>
    match path.parent? with
    | some parent => path :: ancestors parent steps
    | none => [path]

/-- Makes a directory with all that lead to it. -/
def makeDirectories (path : Path) : FileAction Unit :=
  makeChain (ancestors path path.length)

/-- Puts a file where a path leads, in place of one that is there. -/
def writeBytes (path : Path) (bytes : ByteArray) : FileAction Unit := do
  let tree ← get
  let location ← ExceptT.mk (pure (tree.resolve path))
  match tree.lookup? location with
  | some .directory => throw .isADirectory
  -- Only a hard link that names no file leads here.
  | some (.symbolicLink _) | some (.hardLink _) => throw .notFound
  | _ => set { tree with nodes := FileTree.put location (.file bytes) tree.nodes }

def writeText (path : Path) (text : String) : FileAction Unit :=
  writeBytes path text.toUTF8

end FileAction

end SkillCompiler
