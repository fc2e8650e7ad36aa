import SkillCompiler.Log.Entry
import SkillCompiler.Pattern.Basic
import SkillCompiler.Text.Decimal

/-!
# Log filters

A filter says which entries of a log are kept. It is written as rules with commas between them:

* `level` speaks of every entry,
* `area=level` of the entries from areas whose names start so,
* `area[{field}]=level` of those among them that have a field.

A rule without a level keeps all that it speaks of. Of the rules that speak of an entry only the
most specific one counts, and of equals the last.
-/

namespace SkillCompiler

namespace Level

/-- The level of a rank, with nothing at rank zero. -/
def ofRank? : Nat → Option (Option Level)
  | 0 => some none
  | 1 => some error
  | 2 => some warn
  | 3 => some info
  | 4 => some debug
  | 5 => some trace
  | _ => none

/-- A number in decimal digits, perhaps after a plus sign. -/
def readRank? (word : List Char) : Option Nat :=
  let digits := if word.head? = some '+' then word.tail else word
  if digits = [] || !digits.all Char.isDigit then none
  else some (digits.foldl (fun n c => 10 * n + (c.toNat - '0'.toNat)) 0)

/-- What a word for a level asks for: its name in letters of either case, or its rank. -/
def ofWord? (word : List Char) : Option (Option Level) :=
  match readRank? word with
  | some rank => ofRank? rank
  | none =>
    match String.ofList (word.map Char.toLower) with
    | "off" => some none
    | "error" => some error
    | "warn" => some warn
    | "info" => some info
    | "debug" => some debug
    | "trace" => some trace
    | _ => none

end Level

/-- One rule of a filter. -/
structure LogRule where
  /-- How the names of the areas start. -/
  area : Option String := none
  /-- A field that the entries have. -/
  field : Option String := none
  /-- Whether the entries have to stand in a span. None does: work is not logged in spans. -/
  inSpan : Bool := false
  level : Option Level
  deriving DecidableEq, Repr

namespace LogRule

/-- Whether a rule speaks of an entry. -/
def concerns (r : LogRule) (e : Entry) : Bool :=
  !r.inSpan && r.area.all (e.area.name.startsWith ·) && r.field.all (e.hasField ·)

/-- How much of an area's name a rule gives; a rule for all areas gives least. -/
def reach (r : LogRule) : Nat := r.area.elim 0 (·.utf8ByteSize + 1)

/-- Whether a rule is at most as specific as another: by its area, then by its field. -/
def atMost (a b : LogRule) : Bool :=
  a.reach < b.reach || (a.reach = b.reach &&
    match a.field, b.field with
    | none, _ => true
    | some _, none => false
    | some x, some y => !(y < x))

/-! ## Written rules

A rule is taken apart without the blanks around it, but its parts are cut at the same places from
the rule as it is written. Places are counted in bytes. -/

/-- Why there is no rule. -/
inductive Fault where
  | unreadable
  /-- A part would start or end within a character. -/
  | torn
  deriving DecidableEq, Repr

/-- The characters of a text and their places. -/
def places (start : Nat) : List Char → List (Nat × Char)
  | [] => []
  | c :: rest => (start, c) :: places (start + c.utf8Size) rest

/-- What follows a number of bytes. -/
def dropBytes : Nat → List Char → Except Fault (List Char)
  | 0, text => .ok text
  | _ + 1, [] => .error .torn
  | n + 1, c :: rest =>
    if c.utf8Size ≤ n + 1 then dropBytes (n + 1 - c.utf8Size) rest else .error .torn

/-- A number of bytes at the start of a text. -/
def takeBytes : Nat → List Char → Except Fault (List Char)
  | 0, _ => .ok []
  | _ + 1, [] => .error .torn
  | n + 1, c :: rest =>
    if c.utf8Size ≤ n + 1 then (takeBytes (n + 1 - c.utf8Size) rest).map (c :: ·)
    else .error .torn

/-- What stands between two places. -/
def cut (written : List Char) (first last : Nat) : Except Fault (List Char) := do
  takeBytes (last - first) (← dropBytes first written)

/-- The level from a place to the end of a rule. -/
def readLevel (written : List Char) (first : Nat) : Except Fault (Option Level) := do
  match ← dropBytes first written with
  | [] => return some .trace
  | word =>
    match Level.ofWord? word with
    | some level => return level
    | none => throw .unreadable

/-- Completes a rule by what follows the part in brackets. -/
def readEnd (written : List Char) (r : LogRule) : List (Nat × Char) → Except Fault LogRule
  | [] => .ok r
  | (i, '=') :: _ => (readLevel written (i + 1)).map ({ r with level := · })
  | _ => .error .unreadable

/-- Adds a field to a rule. One that has to have a value is a field of a span; the value is a number
or a pattern, and goes up to another equals sign. -/
def withField (r : LogRule) (field : List Char) : Except Fault LogRule :=
  match field.splitOn '=' with
  | _ :: value :: _ =>
    if Text.isNumber value || Pattern.isValid value then .ok { r with inSpan := true }
    else .error .unreadable
  | _ => .ok { r with field := some (String.ofList field) }

/-- Reads a rule from behind its opening bracket on: the name of a span, or a field in braces, or
both. -/
def readBracket (written : List Char) (area : Option String) (first : Nat)
    (text : List (Nat × Char)) : Except Fault LogRule := do
  match text.dropWhile fun p => p.2 ≠ ']' && p.2 ≠ '\x7b' with
  | [] => throw .unreadable
  | (i, ']') :: rest =>
    let _ ← cut written first i
    readEnd written { area, inSpan := true, level := some .trace } rest
  | (i, _) :: rest =>
    let name ← cut written first i
    match rest.dropWhile (·.2 ≠ '\x7d') with
    | [] => throw .unreadable
    | (j, _) :: rest =>
      let field ← cut written (i + 1) j
      if field = [] then throw .unreadable
      let r ← withField { area, inSpan := !name.isEmpty, level := some .trace } field
      match rest with
      | (_, ']') :: rest => readEnd written r rest
      | _ => throw .unreadable

/-- What an area or a level may start with. -/
def isStart (c : Char) : Bool := Text.isAlphanumeric c || c = '-' || c = ':' || c = '_'

/-- The rule that is a level, or else the name of an area. -/
def ofWord (word : List Char) : LogRule :=
  match Level.ofWord? word with
  | some level => { level }
  | none => { area := some (String.ofList word), level := some .trace }

/-- Reads a rule. -/
def parse (written : List Char) : Except Fault LogRule := do
  match places 0 (Text.trim written) with
  | [] => throw .unreadable
  | (_, '[') :: rest => readBracket written none 1 rest
  | (start, c) :: rest =>
    if !isStart c then throw .unreadable
    match rest.dropWhile fun p => p.2 ≠ '=' && p.2 ≠ '[' with
    | [] => return ofWord (← dropBytes start written)
    | (i, '=') :: _ =>
      let area := String.ofList (← cut written start i)
      return { area := some area, level := ← readLevel written (i + 1) }
    | (i, _) :: rest =>
      let area := String.ofList (← cut written start i)
      readBracket written (some area) (i + 1) rest

end LogRule

/-- The rules of a filter, in order. -/
abbrev LogFilter := List LogRule

namespace LogFilter

/-- The filter that keeps all entries from a level on. -/
def ofLevel (level : Level) : LogFilter := [{ level := some level }]

/-- The rule that counts for an entry. -/
def ruleFor? (f : LogFilter) (e : Entry) : Option LogRule :=
  (f.filter (·.concerns e)).foldl
    (fun best r => if best.all (·.atMost r) then some r else best) none

/-- Whether an entry is kept. -/
def keeps (f : LogFilter) (e : Entry) : Bool :=
  (f.ruleFor? e).any fun r => e.isKept r.level

/-- Reads a filter. One without rules keeps errors. -/
def parse (text : String) : Except LogRule.Fault LogFilter :=
  match (text.toList.splitOn ',').filter (· ≠ []) with
  | [] => .ok (ofLevel .error)
  | rules => rules.mapM LogRule.parse

/-- The filter that a user asks for. One that cannot be read counts as none, and then the entries
that inform are kept. There is no filter if a rule is torn. -/
def ofChoice (text : Option String) : Option LogFilter :=
  match text.map parse with
  | none | some (.error .unreadable) => some (ofLevel .info)
  | some (.error .torn) => none
  | some (.ok f) => some f

end LogFilter

end SkillCompiler
