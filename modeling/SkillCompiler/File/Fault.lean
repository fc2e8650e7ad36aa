import SkillCompiler.Path

/-!
# Why a file operation fails
-/

namespace SkillCompiler

inductive FileFault where
  | notFound
  | alreadyExists
  | notADirectory
  | isADirectory
  | nameTooLong
  | tooManyLinks
  | holdsNul
  | notText
  deriving DecidableEq, Repr

def FileFault.message : FileFault → String
  | notFound => "No such file or directory (os error 2)"
  | alreadyExists => "File exists (os error 17)"
  | notADirectory => "Not a directory (os error 20)"
  | isADirectory => "Is a directory (os error 21)"
  | nameTooLong => "File name too long (os error 36)"
  | tooManyLinks => "Too many levels of symbolic links (os error 40)"
  | holdsNul => "file name contained an unexpected NUL byte"
  | notText => "stream did not contain valid UTF-8"

/-- Why a directory cannot be searched. -/
inductive SearchFault where
  | failed (path : Path) (fault : FileFault)
  /-- A link leads back to a directory that the search is in. -/
  | loop (path ancestor : Path)
  deriving DecidableEq, Repr

namespace SearchFault

def message : SearchFault → String
  | failed path fault => "IO error for operation on " ++ path ++ ": " ++ fault.message
  | loop path ancestor =>
    "File system loop found: " ++ path ++ " points to an ancestor " ++ ancestor

/-- The messages of the causes below this one. -/
def sources : SearchFault → List String
  | failed _ fault => [fault.message]
  | loop .. => []

end SearchFault

end SkillCompiler
