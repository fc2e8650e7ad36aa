import SkillCompiler.Text.Alphanumeric
import SkillCompiler.Text.Blank

/-!
# Atoms of patterns

A pattern describes texts. This is about its smallest parts, and about which of them can be matched
by stepping through a text once: a pattern that reads characters looks at no word boundary, and one
that reads bytes matches none outside of characters.

Closing braces do not occur in patterns, so an opening one never starts anything complete.
-/

namespace SkillCompiler

namespace Pattern

/-- What holds at a place of a pattern. -/
structure Flags where
  /-- Characters are read, and not bytes. -/
  unicode : Bool := true
  /-- White space and comments are passed over. -/
  spaced : Bool := false

/-- Passes over white space and comments. -/
def skipGaps (inComment : Bool) : List Char → List Char
  | [] => []
  | c :: rest =>
    if inComment then skipGaps (c ≠ '\n') rest
    else if Text.isSpace c then skipGaps false rest
    else if c = '#' then skipGaps true rest
    else c :: rest

/-- What comes next in a pattern. -/
def Flags.skip (flags : Flags) (text : List Char) : List Char :=
  if flags.spaced then skipGaps false text else text

/-- The smallest parts of a pattern. -/
inductive Atom where
  /-- A character, perhaps given by two digits as a byte. -/
  | literal (c : Char) (byte : Bool)
  | any
  /-- Digits, white space or word characters, or all others. -/
  | kind (negated : Bool)
  /-- The characters with a property. -/
  | property
  /-- A place between characters, perhaps where a word starts or ends. -/
  | place (ofWord : Bool)
  deriving DecidableEq, Repr

namespace Atom

/-- Whether an atom can be matched. -/
def isSound (flags : Flags) : Atom → Bool
  | literal c byte => flags.unicode || !byte || c.toNat < 0x80
  | any => flags.unicode
  | kind negated => flags.unicode || !negated
  | property => flags.unicode
  | place ofWord => !ofWord || !flags.unicode

/-- Whether an atom can stand in a class and be matched there. -/
def isMember (flags : Flags) : Atom → Bool
  | literal c _ => flags.unicode || c.toNat < 0x80
  | kind negated => flags.unicode || !negated
  | property => flags.unicode
  | any | place _ => false

end Atom

/-! ## Escapes -/

/-- Signs of which a backslash takes the meaning. -/
def isSign (c : Char) : Bool :=
  c.toNat < 0x80 && !c.isAlphanum && c ≠ '<' && c ≠ '>'

def hexDigit? (c : Char) : Option Nat :=
  if c.isDigit then some (c.toNat - '0'.toNat)
  else if 'a' ≤ c && c ≤ 'f' then some (c.toNat - 'a'.toNat + 10)
  else if 'A' ≤ c && c ≤ 'F' then some (c.toNat - 'A'.toNat + 10)
  else none

/-- Reads a number of hexadecimal digits, and gives what follows. -/
def readCode (flags : Flags) : (digits value : Nat) → List Char → Option (Nat × List Char)
  | 0, value, text => some (value, text)
  | _ + 1, _, [] => none
  | n + 1, value, c :: rest =>
    match hexDigit? c with
    | some digit => readCode flags n (16 * value + digit) (flags.skip rest)
    | none => none

/-- Reads a character that is given by its code. -/
def readNumbered (flags : Flags) (digits : Nat) (text : List Char) : Option (Atom × List Char) :=
  match readCode flags digits 0 (flags.skip text) with
  | some (code, rest) =>
    if code.isValidChar then some (.literal (Char.ofNat code) (digits = 2), rest) else none
  | none => none

/-- Reads the letter of a property. -/
def readProperty (flags : Flags) (text : List Char) : Option (Atom × List Char) :=
  match flags.skip text with
  | c :: rest =>
    if c.toLower ∈ ['c', 'l', 'm', 'n', 'p', 's', 'z'] then some (.property, flags.skip rest)
    else none
  | [] => none

/-- The control character that a letter stands for. -/
def control? : Char → Option Char
  | 'a' => some '\x07'
  | 'f' => some '\x0c'
  | 'n' => some '\n'
  | 'r' => some '\r'
  | 't' => some '\t'
  | 'v' => some '\x0b'
  | _ => none

/-- Reads what follows a backslash, and gives what follows that. -/
def readEscape (flags : Flags) : List Char → Option (Atom × List Char)
  | [] => none
  | c :: rest =>
    match c with
    | 'x' => readNumbered flags 2 rest
    | 'u' => readNumbered flags 4 rest
    | 'U' => readNumbered flags 8 rest
    | 'p' | 'P' => readProperty flags rest
    | 'd' | 's' | 'w' => some (.kind false, rest)
    | 'D' | 'S' | 'W' => some (.kind true, rest)
    | 'A' | 'z' => some (.place false, rest)
    | 'b' | 'B' | '<' | '>' => some (.place true, rest)
    | c =>
      match control? c with
      | some control => some (.literal control false, rest)
      | none => if isSign c then some (.literal c false, rest) else none

end Pattern

end SkillCompiler
