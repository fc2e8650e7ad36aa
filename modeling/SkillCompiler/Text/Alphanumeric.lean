import SkillCompiler.Text.Alphanumeric.Table
import SkillCompiler.Text.Ranges

/-!
# Letters and numbers of any script
-/

namespace SkillCompiler

namespace Text

/-- Whether a character is a letter in any script. -/
def isAlphabetic (c : Char) : Bool := inRanges alphabeticRuns c

/-- Whether a character is a letter or a number in any script. -/
def isAlphanumeric (c : Char) : Bool := isAlphabetic c || inRanges numericRuns c

end Text

end SkillCompiler
