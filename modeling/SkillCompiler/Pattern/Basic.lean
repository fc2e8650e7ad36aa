import SkillCompiler.Pattern.Class

/-!
# Patterns

A pattern is made of atoms, classes, groups in round brackets, branches between bars, and parts that
are repeated. `isValid` says whether a text is a pattern, and one that can be matched by stepping
through a text once.
-/

namespace SkillCompiler

namespace Pattern

/-! ## Flags -/

/-- Reads flags up to the end of the list, a colon or a closing bracket. Each flag stands once, and
one has to follow the sign that takes them back. `seen` are those before, the last one first. -/
def readFlags (seen : List Char) : List Char → Option (List Char × Char × List Char)
  | [] => none
  | c :: rest =>
    if c = ':' || c = ')' then
      if seen.head? = some '-' then none else some (seen.reverse, c, rest)
    else if c ∈ seen || c ∉ ['-', 'i', 'm', 's', 'U', 'u', 'R', 'x'] then none
    else readFlags (c :: seen) rest

namespace Flags

/-- The flags after a list of flags; those behind a hyphen are taken back. -/
def set (flags : Flags) (on : Bool) : List Char → Flags
  | [] => flags
  | '-' :: rest => flags.set false rest
  | 'u' :: rest => { flags with unicode := on }.set on rest
  | 'x' :: rest => { flags with spaced := on }.set on rest
  | _ :: rest => flags.set on rest

end Flags

/-! ## Groups -/

/-- A part of a branch. -/
inductive Part where
  /-- A list of flags, which cannot be repeated. -/
  | flags
  | item (height : Nat)
  deriving DecidableEq, Repr

namespace Part

def height : Part → Nat
  | flags => 0
  | item height => height

end Part

/-- The branches of a group so far. -/
structure Branches where
  /-- The parts of the last branch, the last one first. -/
  parts : List Part := []
  /-- The greatest height of a branch before. -/
  before : Option Nat := none

namespace Branches

def lastHeight (b : Branches) : Nat := listHeight (b.parts.map Part.height)

def height (b : Branches) : Nat :=
  match b.before with
  | none => b.lastHeight
  | some before => max before b.lastHeight + 1

def add (b : Branches) (part : Part) : Branches := { b with parts := part :: b.parts }

/-- Starts another branch. -/
def split (b : Branches) : Branches := ⟨[], some (max (b.before.getD 0) b.lastHeight)⟩

end Branches

/-- How far a pattern has been read. -/
structure Reading where
  flags : Flags := {}
  branches : Branches := {}
  /-- The groups that are open, the innermost first, and the flags that hold behind them. -/
  outer : List (Branches × Flags) := []
  /-- The names of groups. -/
  names : List (List Char) := []

namespace Reading

def add (r : Reading) (part : Part) : Reading := { r with branches := r.branches.add part }

/-- Opens a group in which flags hold. -/
def enter (r : Reading) (flags : Flags) : Reading :=
  { r with flags, branches := {}, outer := (r.branches, r.flags) :: r.outer }

/-- Closes a group. -/
def leave (r : Reading) : Option Reading :=
  match r.outer with
  | [] => none
  | (branches, flags) :: outer =>
    some { r with flags, branches := branches.add (.item (r.branches.height + 1)), outer }

/-- Repeats the last part. -/
def again (r : Reading) : Option Reading :=
  match r.branches.parts with
  | .item height :: parts =>
    some { r with branches := { r.branches with parts := .item (height + 1) :: parts } }
  | _ => none

/-- What the name of a group is made of. -/
def isNameChar (first : Bool) (c : Char) : Bool :=
  c = '_' || if first then Text.isAlphabetic c
    else c = '.' || c = '[' || c = ']' || Text.isAlphanumeric c

/-- Opens a group with a name. -/
def enterNamed (r : Reading) (text : List Char) : Option (Reading × List Char) :=
  let name := text.takeWhile (· ≠ '>')
  match name, text.drop name.length with
  | first :: others, _ :: rest =>
    if isNameChar true first && others.all (isNameChar false) && name ∉ r.names then
      some ({ r with names := name :: r.names }.enter r.flags, rest)
    else none
  | _, _ => none

/-- Reads what follows an opening bracket. -/
def readOpening (r : Reading) (text : List Char) : Option (Reading × List Char) :=
  match r.flags.skip text with
  | '?' :: 'P' :: '<' :: rest => r.enterNamed rest
  | '?' :: '<' :: rest => r.enterNamed rest
  | '?' :: rest =>
    match readFlags [] rest with
    | none => none
    | some (list, ending, rest) =>
      let flags := r.flags.set true list
      if ending = ':' then some (r.enter flags, rest)
      else if list = [] then none
      else some ({ r with flags }.add .flags, rest)
  | text => some (r.enter r.flags, text)

/-- Reads the next part of a pattern, and gives what follows. -/
def step (r : Reading) (c : Char) (rest : List Char) : Option (Reading × List Char) :=
  match c with
  | '(' => r.readOpening rest
  | ')' => r.leave.map (·, rest)
  | '|' => some ({ r with branches := r.branches.split }, rest)
  | '[' => do
    let (c, rest) ← openClass r.flags rest
    let (height, rest) ← readClass r.flags (rest.length + 1) c [] rest
    return (r.add (.item height), rest)
  | '?' | '*' | '+' => r.again.map (·, if rest.head? = some '?' then rest.tail else rest)
  | '\x7b' => none
  | _ => do
    let (atom, rest) ← match c with
      | '\\' => readEscape r.flags rest
      | '.' => some (.any, rest)
      | '^' | '$' => some (.place false, rest)
      | c => some (.literal c false, rest)
    if atom.isSound r.flags then return (r.add (.item 0), rest) else none

/-- Reads a pattern to its end. -/
def run (r : Reading) : (fuel : Nat) → List Char → Option Reading
  | 0, _ => none
  | fuel + 1, text =>
    match r.flags.skip text with
    | [] => some r
    | c :: rest =>
      match r.step c rest with
      | some (r, rest) => r.run fuel rest
      | none => none

end Reading

/-- How deep a pattern may be nested. -/
def heightLimit : Nat := 250

/-- Whether a text is a pattern that can be matched. -/
def isValid (text : List Char) : Bool :=
  match Reading.run {} (text.length + 1) text with
  | some r => r.outer.isEmpty && r.branches.height ≤ heightLimit
  | none => false

end Pattern

end SkillCompiler
