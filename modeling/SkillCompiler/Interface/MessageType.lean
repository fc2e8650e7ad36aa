/-!
# Message types

A message type names a package and an interface in it, with slashes or colons between, and perhaps
the family of the interface in the middle. The first segment is the package and the last one the
interface; a text without segments stands for both.
-/

namespace SkillCompiler

/-- The family of an interface. -/
inductive Family where
  | service
  | topic
  | action
  deriving DecidableEq, Repr

namespace Family

/-- The extension of definition files of the family, also the name of their directory. -/
def extension : Family → String
  | service => "srv"
  | topic => "msg"
  | action => "action"

def ofExtension? : String → Option Family
  | "srv" => some service
  | "msg" => some topic
  | "action" => some action
  | _ => none

end Family

/-- A package and the name of an interface in it. -/
abbrev MessageType := String

namespace MessageType

/-- The segments of a message type that are not empty. -/
def segments (type : MessageType) : List String :=
  ((type.toList.splitOnP fun c => c = '/' || c = ':').filter (· ≠ [])).map String.ofList

def package (type : MessageType) : String :=
  (segments type).head?.getD type

def interface (type : MessageType) : String :=
  (segments type).getLast?.getD type

/-- The key of a message type in a library of definitions. -/
def key (type : MessageType) : String :=
  package type ++ "/" ++ interface type

end MessageType

end SkillCompiler
