import SkillCompiler.Log.Filter
import SkillCompiler.Text.Lines
import SkillCompiler.Text.Utf8

/-!
# Log buffers

A run keeps its log in memory and prints it at the end, if at all. A buffer holds bytes; they are
read as text, and what is no text is marked.
-/

namespace SkillCompiler

/-- The log of a run so far. -/
structure LogBuffer where
  bytes : ByteArray

namespace LogBuffer

def empty : LogBuffer := ⟨.empty⟩

def isEmpty (b : LogBuffer) : Bool := b.bytes.isEmpty

/-- Adds bytes at the end. -/
def write (b : LogBuffer) (bytes : ByteArray) : LogBuffer := ⟨b.bytes ++ bytes⟩

/-- The buffered text. -/
def contents (b : LogBuffer) : String := Text.decodeLossy b.bytes

/-- Adds the line of an entry. -/
def record (b : LogBuffer) (e : Entry) : LogBuffer := b.write (e.line ++ "\n").toUTF8

/-- The log of the entries that a filter keeps. -/
def ofEntries (f : LogFilter) (entries : List Entry) : LogBuffer :=
  (entries.filter f.keeps).foldl record empty

/-- The buffered text line by line. -/
def lines (b : LogBuffer) : List String :=
  (Text.lines b.contents).map String.ofList

end LogBuffer

end SkillCompiler
