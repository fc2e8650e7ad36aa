import SkillCompiler.Text.LowerCase.Table
import SkillCompiler.Text.Ranges

/-!
# Lower case

Every letter is lowered on its own, with two exceptions: the dotted capital I becomes two
characters, and a capital sigma at the end of a word takes its final form.
-/

namespace SkillCompiler

namespace Text

/-- The lower case of a character that stands alone. -/
def lowerChar (c : Char) : List Char :=
  if c = 'İ' then ['i', '\u0307']
  else
    match caseRuns.find? (·.covers c.toNat) with
    | some run => [Char.ofNat (c.toNat + run.up - run.down)]
    | none => [c]

/-- Whether a word goes on here: the first character that is not passed over carries case. -/
def meetsCase (text : List Char) : Bool :=
  match text.dropWhile (inRanges caseIgnorable) with
  | c :: _ => inRanges cased c
  | [] => false

/-- Lowers a text; `before` is what stands before it, backwards. -/
def lowerFrom (before : List Char) : List Char → List Char
  | [] => []
  | c :: rest =>
    let lowered :=
      if c = 'Σ' then if meetsCase before && !meetsCase rest then ['ς'] else ['σ']
      else lowerChar c
    lowered ++ lowerFrom (c :: before) rest

/-- The text in lower case. -/
def lower (text : String) : String :=
  String.ofList (lowerFrom [] text.toList)

end Text

end SkillCompiler
