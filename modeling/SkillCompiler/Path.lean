/-!
# Paths

A path is text. Slashes divide it into segments; an empty segment or a dot says nothing, unless the
dot comes first. The parent of a path is a piece of its own text, so repeated slashes inside it
stay as they are written.
-/

namespace SkillCompiler

/-- The name of a place in a file tree. -/
abbrev Path := String

namespace Path

/-- Whether a segment says nothing. -/
def isVoid (segment : List Char) : Bool :=
  segment = [] || segment = ['.']

/-- The segments up to the last one that says something. -/
def dropVoid (segments : List (List Char)) : List (List Char) :=
  (segments.reverse.dropWhile isVoid).reverse

def joinSegments (segments : List (List Char)) : List Char :=
  ['/'].intercalate segments

/-- What stands between the slashes of a path. -/
def segments (path : Path) : List String := (path.toList.splitOn '/').map String.ofList

/-- The segments of a path that matter, and how much of its text leads them: the root slash, or
nothing. A first segment that is a dot counts. -/
def split (path : Path) : List Char × List (List Char) :=
  match path.toList with
  | [] => ([], [])
  | '/' :: body => (['/'], dropVoid (body.splitOn '/'))
  | text =>
    match text.splitOn '/' with
    | first :: rest => ([], first :: dropVoid rest)
    | [] => ([], [])

/-- Whether a path starts at the root of the file tree. -/
def isAbsolute (path : Path) : Bool :=
  path.toList.head? = some '/'

/-- The text before the last segment. The empty path and the root have no parent. -/
def parent? (path : Path) : Option Path :=
  match split path with
  | (_, []) => none
  | (['/'], segments) => some (String.ofList ('/' :: joinSegments (dropVoid segments.dropLast)))
  | (_, [_]) => some ""
  | (_, first :: rest) => some (String.ofList (joinSegments (first :: dropVoid rest.dropLast)))

/-- The last segment, if it is a name. -/
def fileName? (path : Path) : Option String :=
  match (split path).2.getLast? with
  | some segment =>
    if segment = ['.'] || segment = ['.', '.'] then none else some (String.ofList segment)
  | none => none

/-- A file name around its last dot: the stem and the extension. A dot at the front does not
count. -/
def splitName (name : String) : String × Option String :=
  let backwards := name.toList.reverse
  match backwards.dropWhile (· ≠ '.') with
  | [] => (name, none)
  | [_] => (name, none)
  | _ :: stem =>
    (String.ofList stem.reverse, some (String.ofList (backwards.takeWhile (· ≠ '.')).reverse))

def stem? (path : Path) : Option String :=
  (fileName? path).map fun name => (splitName name).1

def extension? (path : Path) : Option String :=
  (fileName? path).bind fun name => (splitName name).2

/-- A path below another. An absolute path stays as it is. -/
def join (base : Path) (path : Path) : Path :=
  if isAbsolute path then path
  else if base.isEmpty || base.toList.getLast? = some '/' then base ++ path
  else base ++ "/" ++ path

end Path

end SkillCompiler
