import SkillCompiler.Markup.Reference
import SkillCompiler.Path

/-!
# Settings files

A settings file holds assignments, each on a line: a key, an equals sign and a text in quotes or a
truth value. Blanks stand anywhere between these, and a comment may follow them or stand alone.
Keys are bare words or texts in quotes. A text in three quotes may go over several lines. A file is
refused as a whole if it holds anything else, or if a key is not known, is given twice or has a
value of the wrong kind.
-/

namespace SkillCompiler

/-- What a settings file may say. -/
structure FileSettings where
  templateDir : Option Path := none
  outputDir : Option Path := none
  interfaceDir : Option Path := none
  dataModel : Option Bool := none
  verbose : Option Bool := none
  deriving DecidableEq, Repr

namespace FileSettings

/-- A value in a settings file. -/
inductive Value where
  | text (value : String)
  | truth (value : Bool)
  deriving DecidableEq, Repr

/-! ## Texts in quotes -/

/-- Control characters other than the tab stand neither in texts nor in comments. -/
def isPlain (c : Char) : Bool := c = '\t' || (' ' ≤ c && c ≠ '\x7f')

/-- The character that a letter after a backslash stands for. -/
def escape? : Char → Option Char
  | 'b' => some '\x08'
  | 't' => some '\t'
  | 'n' => some '\n'
  | 'f' => some '\x0c'
  | 'r' => some '\r'
  | '"' => some '"'
  | '\\' => some '\\'
  | _ => none

/-- The character with a hexadecimal number. -/
def numbered? (digits : List Char) : Option Char := do
  let n ← digits.foldlM (fun n c => (Markup.digit? 16 c).map (16 * n + ·)) 0
  if n.isValidChar then return Char.ofNat n else none

/-- Reads what follows a backslash, and gives what follows that. -/
def readEscape : List Char → Option (Char × List Char)
  | 'u' :: a :: b :: c :: d :: rest => (numbered? [a, b, c, d]).map (·, rest)
  | 'U' :: a :: b :: c :: d :: e :: f :: g :: h :: rest =>
    (numbered? [a, b, c, d, e, f, g, h]).map (·, rest)
  | c :: rest => (escape? c).map (·, rest)
  | [] => none

theorem readEscape_length {text rest : List Char} {c : Char}
    (h : readEscape text = some (c, rest)) : rest.length < text.length := by
  unfold readEscape at h
  split at h
  all_goals
    simp only [Option.map_eq_some_iff, Prod.mk.injEq, reduceCtorEq] at h
  all_goals
    obtain ⟨_, _, _, rfl⟩ := h
    simp only [List.length_cons]
    omega

def isBlank (c : Char) : Bool := c = ' ' || c = '\t'

def skipBlanks (text : List Char) : List Char := text.dropWhile isBlank

/-- How a text is quoted: by which mark, and by one of them or by three. Backslashes count between
double quotes, and lines end between three. -/
structure Quotes where
  mark : Char
  triple : Bool
  deriving DecidableEq, Repr

namespace Quotes

def double : Quotes := ⟨'"', false⟩

def single : Quotes := ⟨'\x27', false⟩

/-- Whether backslashes count. -/
def escapes (q : Quotes) : Bool := q.mark = '"'

/-- The quotes that a text opens with, and what follows them. The end of a line right after three
quotes does not count. -/
def open? : List Char → Option (Quotes × List Char)
  | a :: b :: c :: rest =>
    if a ≠ '"' && a ≠ '\x27' then none
    else if a = b && b = c then
      some (⟨a, true⟩, if rest.head? = some '\n' then rest.tail else rest)
    else some (⟨a, false⟩, b :: c :: rest)
  | a :: rest => if a ≠ '"' && a ≠ '\x27' then none else some (⟨a, false⟩, rest)
  | [] => none

/-- If the quotes are closed here, the last marks of the text in them and what follows. Up to two
marks may stand before three that close. -/
def close? (q : Quotes) (text : List Char) : Option (List Char × List Char) :=
  let run := text.takeWhile (· = q.mark)
  if q.triple then
    if run.length < 3 then none
    else
      let more := (run.drop 3).take 2
      some (more, text.drop (3 + more.length))
  else if run = [] then none
  else some ([], text.tail)

/-- Reads a text up to the quotes that close it, and gives what follows them. A backslash at the
end of a line drops it, with the blanks and line ends after it. -/
def read (q : Quotes) (text : List Char) : Option (List Char × List Char) :=
  match q.close? text with
  | some found => some found
  | none =>
    match text with
    | [] => none
    | c :: rest =>
      if c = '\\' && q.escapes then
        if q.triple && (skipBlanks rest).head? = some '\n' then
          q.read (rest.dropWhile fun c => isBlank c || c = '\n')
        else
          match _h : readEscape rest with
          | some (char, after) => (q.read after).map fun (text, rest) => (char :: text, rest)
          | none => none
      else if isPlain c || (q.triple && c = '\n') then
        (q.read rest).map fun (text, rest) => (c :: text, rest)
      else none
termination_by text.length
decreasing_by
  · have := (List.dropWhile_suffix (fun c => isBlank c || c = '\n') (l := rest)).length_le
    simp only [List.length_cons]
    omega
  · have := readEscape_length _h
    simp only [List.length_cons]
    omega
  · simp

theorem open?_length {q : Quotes} {text rest : List Char} (h : open? text = some (q, rest)) :
    rest.length < text.length := by
  unfold open? at h
  split at h
  · split at h
    · simp at h
    · split at h
      · simp only [Option.some.injEq, Prod.mk.injEq] at h
        obtain ⟨_, rfl⟩ := h
        split <;> simp only [List.length_cons, List.length_tail] <;> omega
      · simp only [Option.some.injEq, Prod.mk.injEq] at h
        obtain ⟨_, rfl⟩ := h
        simp
  · split at h
    · simp at h
    · simp only [Option.some.injEq, Prod.mk.injEq] at h
      obtain ⟨_, rfl⟩ := h
      simp
  · simp at h

theorem close?_length {q : Quotes} {text more rest : List Char}
    (h : q.close? text = some (more, rest)) : rest.length < text.length := by
  have hrun := (List.takeWhile_prefix (fun c => decide (c = q.mark)) (l := text)).length_le
  simp only [close?] at h
  split at h
  · split at h
    · simp at h
    · simp only [Option.some.injEq, Prod.mk.injEq] at h
      obtain ⟨_, rfl⟩ := h
      simp only [List.length_drop]
      omega
  · split at h
    · simp at h
    · rename_i hne
      simp only [Option.some.injEq, Prod.mk.injEq] at h
      obtain ⟨_, rfl⟩ := h
      have := List.length_pos_iff.2 hne
      simp only [List.length_tail]
      omega

theorem read_length {q : Quotes} {text inner rest : List Char}
    (h : q.read text = some (inner, rest)) : rest.length < text.length := by
  fun_induction read q text generalizing inner with
  | case1 text found hfound =>
    cases h
    exact close?_length hfound
  | case2 => simp at h
  | case3 c after _ _ _ ih =>
    have := (List.dropWhile_suffix (fun c => isBlank c || c = '\n') (l := after)).length_le
    have := ih h
    simp only [List.length_cons]
    omega
  | case4 c after _ _ char next hnext _ ih =>
    simp only [Option.map_eq_some_iff, Prod.mk.injEq, Prod.exists] at h
    obtain ⟨text, rest', h, _, rfl⟩ := h
    have := ih h
    have := readEscape_length hnext
    simp only [List.length_cons]
    omega
  | case5 => simp at h
  | case6 c after _ _ _ ih =>
    simp only [Option.map_eq_some_iff, Prod.mk.injEq, Prod.exists] at h
    obtain ⟨text, rest', h, _, rfl⟩ := h
    have := ih h
    simp only [List.length_cons]
    omega
  | case7 => simp at h

end Quotes

theorem skipBlanks_length (text : List Char) : (skipBlanks text).length ≤ text.length :=
  (List.dropWhile_suffix _).length_le

/-! ## Assignments -/

/-- The characters of a bare key. -/
def isBare (c : Char) : Bool := c.isAlphanum || c = '_' || c = '-'

/-- Reads a key and gives what follows it. -/
def readKey : List Char → Option (List Char × List Char)
  | '"' :: rest => Quotes.double.read rest
  | '\x27' :: rest => Quotes.single.read rest
  | text =>
    match text.takeWhile isBare with
    | [] => none
    | key => some (key, text.dropWhile isBare)

theorem readKey_length {text key rest : List Char} (h : readKey text = some (key, rest)) :
    rest.length ≤ text.length := by
  unfold readKey at h
  split at h
  · have := Quotes.read_length h
    simp only [List.length_cons]
    omega
  · have := Quotes.read_length h
    simp only [List.length_cons]
    omega
  · split at h
    · simp at h
    · cases h
      exact (List.dropWhile_suffix _).length_le

/-- Reads a value and gives what follows it. -/
def readValue (text : List Char) : Option (Value × List Char) :=
  match Quotes.open? text with
  | some (q, rest) => (q.read rest).map fun (text, rest) => (.text (String.ofList text), rest)
  | none =>
    match text with
    | 't' :: 'r' :: 'u' :: 'e' :: rest => some (.truth true, rest)
    | 'f' :: 'a' :: 'l' :: 's' :: 'e' :: rest => some (.truth false, rest)
    | _ => none

theorem readValue_length {text rest : List Char} {value : Value}
    (h : readValue text = some (value, rest)) : rest.length < text.length := by
  unfold readValue at h
  split at h
  · rename_i hopen
    simp only [Option.map_eq_some_iff, Prod.mk.injEq, Prod.exists] at h
    obtain ⟨_, _, h, _, rfl⟩ := h
    have := Quotes.open?_length hopen
    have := Quotes.read_length h
    omega
  · split at h
    · cases h
      simp only [List.length_cons]
      omega
    · cases h
      simp only [List.length_cons]
      omega
    · simp at h

/-- Reads an assignment and gives what follows it. -/
def readAssignment (text : List Char) : Option (String × Value × List Char) :=
  match readKey text with
  | none => none
  | some (key, rest) =>
    match skipBlanks rest with
    | '=' :: rest =>
      (readValue (skipBlanks rest)).map fun (value, rest) => (String.ofList key, value, rest)
    | _ => none

theorem readAssignment_length {text rest : List Char} {key : String} {value : Value}
    (h : readAssignment text = some (key, value, rest)) : rest.length < text.length := by
  unfold readAssignment at h
  split at h
  · simp at h
  · rename_i before hkey
    split at h
    · rename_i after hafter
      simp only [Option.map_eq_some_iff, Prod.mk.injEq, Prod.exists] at h
      obtain ⟨_, _, h, _, _, rfl⟩ := h
      have := readKey_length hkey
      have := skipBlanks_length before
      have := skipBlanks_length after
      have := readValue_length h
      rw [hafter, List.length_cons] at *
      omega
    · simp at h

/-- What follows the rest of a line that says nothing: it is blank up to its end or to a comment. -/
def skipLine (text : List Char) : Option (List Char) :=
  match skipBlanks text with
  | [] => some []
  | '\n' :: rest => some rest
  | '#' :: rest =>
    let comment := rest.takeWhile (· ≠ '\n')
    if comment.all isPlain then some (rest.drop (comment.length + 1)) else none
  | _ => none

theorem skipLine_length {text rest : List Char} (h : skipLine text = some rest) :
    rest.length ≤ text.length - 1 := by
  have hblanks := skipBlanks_length text
  simp only [skipLine] at h
  split at h
  · cases h
    simp
  · rename_i hline
    cases h
    rw [hline, List.length_cons] at hblanks
    omega
  · rename_i hline
    rw [hline, List.length_cons] at hblanks
    split at h
    · cases h
      simp only [List.length_drop]
      omega
    · simp at h
  · simp at h

/-! ## Settings -/

/-- Adds what an assignment says. -/
def assign (s : FileSettings) (key : String) (value : Value) : Option FileSettings :=
  match key, value with
  | "template_path", .text path =>
    if s.templateDir.isNone then some { s with templateDir := some path } else none
  | "output_path", .text path =>
    if s.outputDir.isNone then some { s with outputDir := some path } else none
  | "interface_path", .text path =>
    if s.interfaceDir.isNone then some { s with interfaceDir := some path } else none
  | "datamodel_mode", .truth b =>
    if s.dataModel.isNone then some { s with dataModel := some b } else none
  | "verbose_mode", .truth b =>
    if s.verbose.isNone then some { s with verbose := some b } else none
  | _, _ => none

/-- Text in which every line ends with a line feed alone. -/
def plainLines : List Char → List Char
  | '\r' :: '\n' :: rest => '\n' :: plainLines rest
  | c :: rest => c :: plainLines rest
  | [] => []

/-- Reads the lines of a file. -/
def readLines (s : FileSettings) (text : List Char) : Option FileSettings :=
  if text = [] then some s
  else
    match _h : skipLine text with
    | some rest => readLines s rest
    | none =>
      match _h : readAssignment (skipBlanks text) with
      | none => none
      | some (key, value, rest) =>
        match s.assign key value, _h : skipLine rest with
        | some s, some rest => readLines s rest
        | _, _ => none
termination_by text.length
decreasing_by
  · have := skipLine_length _h
    have := List.length_pos_iff.2 (by assumption : text ≠ [])
    omega
  · have := skipLine_length (by assumption : skipLine _ = some _)
    have := readAssignment_length (by assumption : readAssignment _ = some _)
    have := skipBlanks_length text
    omega

/-- A text without a byte order mark at its start. -/
def dropMark (text : List Char) : List Char :=
  match text with
  | '\ufeff' :: rest => rest
  | _ => text

/-- Reads a settings file. -/
def parse? (text : String) : Option FileSettings :=
  readLines {} (plainLines (dropMark text.toList))

end FileSettings

end SkillCompiler
