/-!
# Ranges of characters

Classes of characters are kept as ranges of codes, each from its first code to its last.
-/

namespace SkillCompiler

namespace Text

/-- Whether a character lies in one of some ranges. -/
def inRanges (ranges : List (Nat × Nat)) (c : Char) : Bool :=
  ranges.any fun (first, last) => first ≤ c.toNat && c.toNat ≤ last

end Text

end SkillCompiler
