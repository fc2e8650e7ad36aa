/-!
# Lines

A line ends with a line feed, to which a carriage return before it belongs. What follows the last
line feed is a line if it is not empty.
-/

namespace SkillCompiler

namespace Text

/-- A line without the carriage return at its end. -/
def dropReturn (line : List Char) : List Char :=
  if line.getLast? = some '\r' then line.dropLast else line

/-- Joins the pieces between line feeds to lines. -/
def linesOfPieces : List (List Char) → List (List Char)
  | [] => []
  | [last] => if last = [] then [] else [last]
  | piece :: rest => dropReturn piece :: linesOfPieces rest

/-- The lines of a text. -/
def lines (text : String) : List (List Char) := linesOfPieces (text.toList.splitOn '\n')

end Text

end SkillCompiler
