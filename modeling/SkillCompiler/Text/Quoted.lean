import SkillCompiler.Text.Quoted.Table
import SkillCompiler.Text.Ranges

/-!
# Quoted text

Text in double quotes. Quotes, backslashes and characters without a shape of their own are written
as escapes.
-/

namespace SkillCompiler

namespace Text

/-- Whether a character has no shape of its own. -/
def isShapeless (c : Char) : Bool := inRanges shapelessRuns c

/-- The hexadecimal digits of a number. -/
def hexDigits (n : Nat) : List Char := Nat.toDigits 16 n

/-- A character inside quotes. -/
def quotedChar (c : Char) : List Char :=
  match c with
  | '"' => ['\\', '"']
  | '\\' => ['\\', '\\']
  | '\n' => ['\\', 'n']
  | '\r' => ['\\', 'r']
  | '\t' => ['\\', 't']
  | '\x00' => ['\\', '0']
  | c =>
    if isShapeless c then
      "\\u\x7b".toList ++ hexDigits c.toNat ++ ['\x7d']
    else [c]

/-- The text in double quotes. -/
def quoted (text : String) : String :=
  String.ofList ('"' :: text.toList.flatMap quotedChar ++ ['"'])

/-- A list of quoted texts in square brackets. -/
def quotedList (texts : List String) : String :=
  "[" ++ ", ".intercalate (texts.map quoted) ++ "]"

end Text

end SkillCompiler
