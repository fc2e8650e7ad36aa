import SkillCompiler.Markup.Fault
import SkillCompiler.Text.Search

/-!
# Character references

Five characters are written as references; reading also knows numbers in decimal and hexadecimal.
The first reference that names no character is the fault of the whole text.
-/

namespace SkillCompiler

namespace Markup

/-- A character as it is written in text and attribute values. -/
def escapeChar (c : Char) : List Char :=
  match c with
  | '<' => "&lt;".toList
  | '>' => "&gt;".toList
  | '&' => "&amp;".toList
  | '\'' => "&apos;".toList
  | '"' => "&quot;".toList
  | c => [c]

def escape (text : List Char) : List Char :=
  text.flatMap escapeChar

/-- The value of a digit in bases up to sixteen. -/
def digit? (base : Nat) (c : Char) : Option Nat :=
  let value :=
    if '0' ≤ c ∧ c ≤ '9' then some (c.toNat - '0'.toNat)
    else if 'a' ≤ c ∧ c ≤ 'f' then some (c.toNat - 'a'.toNat + 10)
    else if 'A' ≤ c ∧ c ≤ 'F' then some (c.toNat - 'A'.toNat + 10)
    else none
  value.filter (· < base)

/-- Reads digits from the left; the number has to stay below `2 ^ 32`. -/
def number (base : Nat) : (value : Nat) → List Char → Except BadNumber Nat
  | value, [] => .ok value
  | value, c :: rest =>
    match digit? base c with
    | none => .error .digit
    | some d =>
      if value * base + d < 2 ^ 32 then number base (value * base + d) rest
      else .error .tooLarge

/-- Reads an unsigned number that has at least one digit. -/
def unsigned (base : Nat) (digits : List Char) : Except BadNumber Nat :=
  match digits with
  | [] => .error .empty
  | '+' :: _ => .error .sign
  | '-' :: _ => .error .sign
  | digits => number base 0 digits

/-- The character with a given code; the null character is refused. -/
def ofCode (code : Nat) : Except BadNumber Char :=
  if code = 0 then .error .zero
  else if code.isValidChar then .ok (Char.ofNat code)
  else .error (.notScalar code)

/-- The character that `&name;` stands for, with `start` the position of the name. -/
def resolve (start : Nat) (name : List Char) : Except Fault Char :=
  match name with
  | '#' :: 'x' :: digits => ((unsigned 16 digits).bind ofCode).mapError .badNumber
  | '#' :: digits => ((unsigned 10 digits).bind ofCode).mapError .badNumber
  | ['l', 't'] => .ok '<'
  | ['g', 't'] => .ok '>'
  | ['a', 'm', 'p'] => .ok '&'
  | ['a', 'p', 'o', 's'] => .ok '\''
  | ['q', 'u', 'o', 't'] => .ok '"'
  | name => .error (.unknownEntity start (start + Text.width name) (String.ofList name))

/-- Resolves every reference from `position` on in a text of `total` bytes. -/
def unescapeFrom (total : Nat) (position : Nat) : List Char → Except Fault (List Char)
  | [] => .ok []
  | c :: rest =>
    if c = '&' then
      let name := rest.takeWhile fun c => c ≠ '&' && c ≠ ';'
      match h : rest.dropWhile fun c => c ≠ '&' && c ≠ ';' with
      | ';' :: rest' => do
        let d ← resolve (position + 1) name
        return d :: (← unescapeFrom total (position + 1 + Text.width name + 1) rest')
      | _ => .error (.unterminatedReference position total)
    else do
      return c :: (← unescapeFrom total (position + c.utf8Size) rest)
termination_by text => text.length
decreasing_by
  · have := (List.dropWhile_suffix (l := rest) fun c => c ≠ '&' && c ≠ ';').length_le
    rw [h] at this
    simp at this ⊢
    omega
  · simp

/-- The text with its references resolved. -/
def unescape (text : List Char) : Except Fault (List Char) :=
  unescapeFrom (Text.width text) 0 text

end Markup

end SkillCompiler
