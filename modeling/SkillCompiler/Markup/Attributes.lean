import SkillCompiler.Markup.Reference
import SkillCompiler.Markup.Token

/-!
# Reading attributes

The content of a tag after its name is a sequence of names, each with an equals sign and a quoted
value. White space may stand around the sign and may be missing between attributes. Positions
count bytes from the start of the tag's content. An attribute takes at least one character
(`readAttribute_length_lt`).
-/

namespace SkillCompiler

namespace Markup

/-- White space between pieces of markup. -/
def isBlank (c : Char) : Bool :=
  c = ' ' || c = '\t' || c = '\r' || c = '\n'

/-- An attribute as it is written: the position of its name, the name and the raw value. -/
structure RawAttribute where
  position : Nat
  name : List Char
  value : List Char
  deriving DecidableEq, Repr

/-- The text up to a quote and the text after it. -/
def quoted? (quote : Char) : List Char → Option (List Char × List Char)
  | [] => none
  | c :: rest =>
    if c = quote then some ([], rest)
    else (quoted? quote rest).map fun (value, rest) => (c :: value, rest)

theorem quoted?_length {q : Char} {s v r : List Char} (h : quoted? q s = some (v, r)) :
    r.length < s.length := by
  induction s generalizing v with
  | nil => simp [quoted?] at h
  | cons c s ih =>
    rw [quoted?] at h
    split at h
    · simp only [Option.some.injEq, Prod.mk.injEq] at h
      simp [← h.2]
    · simp only [Option.map_eq_some_iff, Prod.mk.injEq] at h
      obtain ⟨⟨v', r'⟩, h', -, rfl⟩ := h
      have : r'.length < s.length := ih h'
      simp
      omega

/-- Reads one attribute from tag content of `total` bytes of which `rest` is left. With `unique`,
a name among those `seen` is refused. -/
def readAttribute (unique : Bool) (total : Nat) (seen : List RawAttribute) (rest : List Char) :
    Except Fault (Option (RawAttribute × List Char)) :=
  let offset (s : List Char) : Nat := total - Text.width s
  match rest.dropWhile isBlank with
  | [] => .ok none
  | c :: body =>
    let position := offset (c :: body)
    let name := c :: body.takeWhile fun c => c ≠ '=' && !isBlank c
    match (body.dropWhile fun c => c ≠ '=' && !isBlank c).dropWhile isBlank with
    | '=' :: body =>
      match if unique then seen.find? fun a => a.name = name else none with
      | some a => .error (.duplicatedAttribute position a.position)
      | none =>
        match body.dropWhile isBlank with
        | [] => .error (.missingValue total)
        | quote :: body =>
          if quote = '"' || quote = '\'' then
            match quoted? quote body with
            | some (value, rest) => .ok (some (⟨position, name, value⟩, rest))
            | none => .error (.missingQuote total quote)
          else .error (.unquotedValue (offset (quote :: body)))
    | rest => .error (.missingEquals (offset rest))

theorem readAttribute_length_lt {u : Bool} {n : Nat} {seen : List RawAttribute} {s r : List Char}
    {a : RawAttribute} (h : readAttribute u n seen s = .ok (some (a, r))) :
    r.length < s.length := by
  have drop (p : Char → Bool) (l : List Char) : (l.dropWhile p).length ≤ l.length :=
    (List.dropWhile_suffix p).length_le
  unfold readAttribute at h
  split at h
  · simp at h
  rename_i c body hs
  simp only at h
  split at h
  · rename_i body' hb
    split at h
    · simp at h
    split at h
    · simp at h
    rename_i quote body'' hq
    split at h
    · split at h
      · rename_i value rest hv
        simp only [Except.ok.injEq, Option.some.injEq, Prod.mk.injEq] at h
        have h1 := quoted?_length hv
        have h2 := drop isBlank body'
        have h3 := drop isBlank (body.dropWhile fun c => c ≠ '=' && !isBlank c)
        have h4 := drop (fun c => c ≠ '=' && !isBlank c) body
        have h5 := drop isBlank s
        rw [hq] at h2
        rw [hb] at h3
        rw [hs] at h5
        simp only [List.length_cons] at h2 h3 h5
        rw [← h.2]
        omega
      · simp at h
    · simp at h
  · simp at h

/-- Reads the attributes of a tag; a value's references are resolved before the next attribute is
looked at. -/
def readAttributes (total : Nat) (seen : List RawAttribute) (rest : List Char) :
    Except Fault (List Attribute) :=
  match _h : readAttribute true total seen rest with
  | .error fault => .error fault
  | .ok none => .ok []
  | .ok (some (a, rest')) => do
    let value ← unescape a.value
    let more ← readAttributes total (a :: seen) rest'
    return ⟨String.ofList a.name, String.ofList value⟩ :: more
termination_by rest.length
decreasing_by exact readAttribute_length_lt _h

/-- The attributes that can be read before a fault, repeated names included. -/
def readableAttributes (total : Nat) (rest : List Char) : List RawAttribute :=
  match _h : readAttribute false total [] rest with
  | .ok (some (a, rest')) => a :: readableAttributes total rest'
  | _ => []
termination_by rest.length
decreasing_by exact readAttribute_length_lt _h

end Markup

end SkillCompiler
