import SkillCompiler.Pattern.Atom

/-!
# Classes of characters in patterns

A class stands in square brackets. It lists characters, ranges and other classes, and may combine
lists by `&&`, `--` and `~~`. How deep classes and lists are nested is their *height*.
-/

namespace SkillCompiler

namespace Pattern

/-- The height of a list of parts with these heights. A list of one part is that part. -/
def listHeight : List Nat → Nat
  | [] => 0
  | [height] => height
  | heights => heights.foldl max 0 + 1

/-- A class that is not closed yet. -/
structure OpenClass where
  /-- The heights of the parts since the last sign that combines. -/
  parts : List Nat
  /-- The height of what stands before that sign. -/
  before : Option Nat := none

namespace OpenClass

/-- The height of what is in a class so far. -/
def height (c : OpenClass) : Nat :=
  match c.before with
  | none => listHeight c.parts
  | some before => max before (listHeight c.parts) + 1

def add (c : OpenClass) (height : Nat) : OpenClass := { c with parts := height :: c.parts }

/-- Goes on behind a sign that combines. -/
def combine (c : OpenClass) : OpenClass := ⟨[], some c.height⟩

end OpenClass

/-- Hyphens at the start of a class stand for themselves. -/
def readHyphens (flags : Flags) : (fuel : Nat) → List Nat → List Char → List Nat × List Char
  | 0, parts, text => (parts, text)
  | fuel + 1, parts, '-' :: rest => readHyphens flags fuel (0 :: parts) (flags.skip rest)
  | _, parts, text => (parts, text)

/-- Reads the start of a class, behind its bracket. A closing bracket that comes first stands for
itself. -/
def openClass (flags : Flags) (text : List Char) : Option (OpenClass × List Char) :=
  let text := flags.skip text
  let negated := text.head? = some '^'
  if negated && !flags.unicode then none
  else
    let text := if negated then flags.skip text.tail else text
    match readHyphens flags text.length [] text with
    | ([], ']' :: rest) => some (⟨[0], none⟩, flags.skip rest)
    | (parts, rest) => some (⟨parts, none⟩, rest)

def namedClasses : List String :=
  ["alnum", "alpha", "ascii", "blank", "cntrl", "digit", "graph", "lower", "print", "punct",
    "space", "upper", "word", "xdigit"]

/-- Reads a class that is given by name, behind its bracket: whether it is negated, and what
follows it. -/
def readNamed (text : List Char) : Option (Bool × List Char) :=
  match text with
  | ':' :: rest =>
    let negated := rest.head? = some '^'
    let rest := if negated then rest.tail else rest
    let name := rest.takeWhile (· ≠ ':')
    match rest.drop name.length with
    | ':' :: ']' :: rest =>
      if String.ofList name ∈ namedClasses then some (negated, rest) else none
    | _ => none
  | _ => none

/-- The next character behind gaps; the first one of a comment if there is one. -/
def peekPast (flags : Flags) (text : List Char) : Option Char :=
  if !flags.spaced then text.head?
  else
    let ahead := text.dropWhile Text.isSpace
    let ahead := if ahead.head? = some '#' then ahead.tail.dropWhile Text.isSpace else ahead
    ahead.head?.or text.head?

/-- Reads one atom of a class. -/
def readMember (flags : Flags) : List Char → Option (Atom × List Char)
  | [] => none
  | '\\' :: rest => readEscape flags rest
  | c :: rest => some (.literal c false, rest)

/-- Reads an atom or a range of a class, and gives what follows. -/
def readRange (flags : Flags) (text : List Char) : Option (List Char) := do
  let (first, rest) ← readMember flags text
  if !first.isMember flags then none
  let rest := flags.skip rest
  let isRange := rest.head? = some '-' &&
    peekPast flags rest.tail ≠ some ']' && peekPast flags rest.tail ≠ some '-'
  if !isRange then return rest
  let (last, rest) ← readMember flags (flags.skip rest.tail)
  if !last.isMember flags then none
  match first, last with
  | .literal a _, .literal b _ => if a ≤ b then return rest else none
  | _, _ => none

/-- Reads a class to its end: its height, and what follows it. `outer` are the classes around it. -/
def readClass (flags : Flags) :
    (fuel : Nat) → OpenClass → (outer : List OpenClass) → List Char → Option (Nat × List Char)
  | 0, _, _, _ => none
  | fuel + 1, c, outer, text =>
    match flags.skip text with
    | [] => none
    | '[' :: rest =>
      match readNamed rest with
      | some (negated, rest) =>
        if negated && !flags.unicode then none else readClass flags fuel (c.add 0) outer rest
      | none =>
        match openClass flags rest with
        | some (inner, rest) => readClass flags fuel inner (c :: outer) rest
        | none => none
    | ']' :: rest =>
      match outer with
      | [] => some (c.height + 1, rest)
      | next :: outer => readClass flags fuel (next.add (c.height + 1)) outer rest
    | '&' :: '&' :: rest => readClass flags fuel c.combine outer rest
    | '-' :: '-' :: rest => readClass flags fuel c.combine outer rest
    | '~' :: '~' :: rest => readClass flags fuel c.combine outer rest
    | text =>
      match readRange flags text with
      | some rest => readClass flags fuel (c.add 0) outer rest
      | none => none

end Pattern

end SkillCompiler
