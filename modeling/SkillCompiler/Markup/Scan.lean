import SkillCompiler.Markup.Attributes

/-!
# Reading tokens

`next` reads one token from the front of the text, and `scan` reads tokens until the text ends or
one cannot be read. The reader is lenient: a name is whatever stands where a name is expected, and
quotes inside a tag hide a closing angle. A token always takes at least one character
(`next_length_lt`), which is why reading ends.
-/

namespace SkillCompiler

namespace Markup

/-- The text without the blanks at its end. -/
def trimEnd (text : List Char) : List Char :=
  (text.reverse.dropWhile isBlank).reverse

/-! ## Tags and the other pieces -/

/-- Cuts tag content at the first closing angle outside quotes. -/
def tag? (quote : Option Char) : List Char → Option (List Char × List Char)
  | [] => none
  | c :: rest =>
    match quote with
    | some q => (tag? (if c = q then none else some q) rest).map fun (s, r) => (c :: s, r)
    | none =>
      if c = '>' then some ([], rest)
      else
        (tag? (if c = '"' || c = '\'' then some c else none) rest).map fun (s, r) => (c :: s, r)

theorem tag?_length {q : Option Char} {s t r : List Char} (h : tag? q s = some (t, r)) :
    r.length < s.length := by
  induction s generalizing q t with
  | nil => simp [tag?] at h
  | cons c s ih =>
    rw [tag?.eq_def] at h
    simp only at h
    split at h
    · simp only [Option.map_eq_some_iff, Prod.mk.injEq] at h
      obtain ⟨⟨t', r'⟩, h', -, rfl⟩ := h
      have : r'.length < s.length := ih h'
      simp
      omega
    · split at h
      · simp only [Option.some.injEq, Prod.mk.injEq] at h
        simp [← h.2]
      · simp only [Option.map_eq_some_iff, Prod.mk.injEq] at h
        obtain ⟨⟨t', r'⟩, h', -, rfl⟩ := h
        have : r'.length < s.length := ih h'
        simp
        omega

/-- Cuts a doctype at the closing angle that balances its opening one. -/
def doctype? (depth : Nat) : List Char → Option (List Char × List Char)
  | [] => none
  | c :: rest =>
    if c = '>' then
      match depth with
      | 0 => some ([], rest)
      | depth + 1 => (doctype? depth rest).map fun (s, r) => (c :: s, r)
    else (doctype? (if c = '<' then depth + 1 else depth) rest).map fun (s, r) => (c :: s, r)

theorem doctype?_length {n : Nat} {s t r : List Char} (h : doctype? n s = some (t, r)) :
    r.length < s.length := by
  induction s generalizing n t with
  | nil => simp [doctype?] at h
  | cons c s ih =>
    rw [doctype?.eq_def] at h
    simp only at h
    split at h
    · split at h
      · simp only [Option.some.injEq, Prod.mk.injEq] at h
        simp [← h.2]
      · simp only [Option.map_eq_some_iff, Prod.mk.injEq] at h
        obtain ⟨⟨t', r'⟩, h', -, rfl⟩ := h
        have : r'.length < s.length := ih h'
        simp
        omega
    · simp only [Option.map_eq_some_iff, Prod.mk.injEq] at h
      obtain ⟨⟨t', r'⟩, h', -, rfl⟩ := h
      have : r'.length < s.length := ih h'
      simp
      omega

/-- A token and the text after it. -/
abbrev Read := Except Fault (Token × List Char)

/-- Reads what follows `<!--`. -/
def comment (body : List Char) : Read :=
  match Text.cut? "-->".toList body with
  | some (value, rest) => .ok (.comment (String.ofList value), rest)
  | none => .error .unclosedComment

/-- Reads what follows `<![CDATA[`. -/
def cdata (body : List Char) : Read :=
  match Text.cut? "]]>".toList body with
  | some (value, rest) => .ok (.cdata (String.ofList value), rest)
  | none => .error .unclosedCData

/-- Reads a doctype from its first letter on; the word may be in any case, and a name has to
follow it. -/
def doctype (body : List Char) : Read :=
  match doctype? 0 body with
  | none => .error .unclosedDoctype
  | some (content, rest) =>
    if (content.take 7).map Char.toUpper = "DOCTYPE".toList then
      if (content.drop 7).all isBlank then .error .namelessDoctype else .ok (.skipped, rest)
    else .error .unclosedDoctype

/-- Reads what follows `<!`. -/
def bang (body : List Char) : Read :=
  match body with
  | '-' :: body =>
    match body with
    | '-' :: body => comment body
    | _ => .error .unclosedComment
  | '[' :: body =>
    match Text.dropStart? "CDATA[".toList body with
    | some body => cdata body
    | none => .error .unclosedCData
  | 'D' :: _ => doctype body
  | 'd' :: _ => doctype body
  | _ => .error .unknownBang

/-- The declaration made by the content of `<?xml ...?>`. The version is the first attribute's
value if that attribute is the version, and `1.0` otherwise. -/
def declarationOf (content : List Char) : Declaration :=
  let known := readableAttributes (Text.width content) (content.drop 3)
  let valueOf (name : String) : Option String :=
    (known.find? fun a => a.name = name.toList).map fun a => String.ofList a.value
  { version :=
      match known.head? with
      | some a => if a.name = "version".toList then String.ofList a.value else "1.0"
      | none => "1.0"
    encoding := valueOf "encoding"
    standalone := valueOf "standalone" }

/-- Reads what follows `<?`: the declaration, or an instruction that is skipped. -/
def instruction (body : List Char) : Read :=
  match body with
  | '>' :: _ => .error .unclosedInstruction
  | body =>
    match Text.cut? "?>".toList body with
    | none => .error .unclosedInstruction
    | some (content, rest) =>
      match Text.dropStart? "xml".toList content with
      | some [] => .ok (.declaration (declarationOf content), rest)
      | some (c :: _) =>
        if isBlank c then .ok (.declaration (declarationOf content), rest)
        else .ok (.skipped, rest)
      | none => .ok (.skipped, rest)

/-- Reads what follows `</`: a name without the blanks at its end, unless it is all blank. -/
def closeTag (body : List Char) : Read :=
  match tag? none body with
  | none => .error .unclosedTag
  | some (content, rest) =>
    let name := if content.all isBlank then content else trimEnd content
    .ok (.close (String.ofList name), rest)

/-- Reads what follows the angle of a tag that opens an element. A slash at the end makes the
element empty and is not part of the content. -/
def startTag (body : List Char) : Read :=
  match tag? none body with
  | none => .error .unclosedTag
  | some (content, rest) =>
    let empty := content.getLast? = some '/'
    let content := if empty then content.dropLast else content
    let tag := String.ofList (content.takeWhile fun c => !isBlank c)
    match readAttributes (Text.width content) [] (content.dropWhile fun c => !isBlank c) with
    | .error fault => .error fault
    | .ok as => .ok (if empty then .empty tag as else .start tag as, rest)

/-- Reads what follows an opening angle. -/
def markup (body : List Char) : Read :=
  match body with
  | [] => .error .unclosedTag
  | '!' :: body => bang body
  | '?' :: body => instruction body
  | '/' :: body => closeTag body
  | body => startTag body

/-- Reads a run of text up to the next angle, without the blanks at its end. -/
def characters (text : List Char) : Read :=
  match unescape (trimEnd (text.takeWhile (· ≠ '<'))) with
  | .error fault => .error fault
  | .ok value => .ok (.text (String.ofList value), text.dropWhile (· ≠ '<'))

/-- The next token after any blanks, or none at the end of the text. -/
def next (text : List Char) : Except Fault (Option (Token × List Char)) :=
  match text.dropWhile isBlank with
  | [] => .ok none
  | '<' :: body => (markup body).map some
  | text => (characters text).map some

/-! ## Each token takes text -/

theorem cut?_length {n t a b : List Char} (h : Text.cut? n t = some (a, b)) :
    b.length ≤ t.length := by
  rw [Text.cut?_eq_some h]
  simp
  omega

theorem comment_length {s r : List Char} {t : Token} (h : comment s = .ok (t, r)) :
    r.length ≤ s.length := by
  unfold comment at h
  split at h
  · rename_i hc
    simp only [Except.ok.injEq, Prod.mk.injEq] at h
    exact h.2 ▸ cut?_length hc
  · simp at h

theorem cdata_length {s r : List Char} {t : Token} (h : cdata s = .ok (t, r)) :
    r.length ≤ s.length := by
  unfold cdata at h
  split at h
  · rename_i hc
    simp only [Except.ok.injEq, Prod.mk.injEq] at h
    exact h.2 ▸ cut?_length hc
  · simp at h

theorem doctype_length {s r : List Char} {t : Token} (h : doctype s = .ok (t, r)) :
    r.length ≤ s.length := by
  unfold doctype at h
  split at h
  · simp at h
  · rename_i hd
    split at h
    · split at h
      · simp at h
      · simp only [Except.ok.injEq, Prod.mk.injEq] at h
        exact h.2 ▸ Nat.le_of_lt (doctype?_length hd)
    · simp at h

theorem bang_length {s r : List Char} {t : Token} (h : bang s = .ok (t, r)) :
    r.length ≤ s.length := by
  unfold bang at h
  split at h
  · split at h
    · have := comment_length h
      simp
      omega
    · simp at h
  · split at h
    · rename_i hd
      have := cdata_length h
      rw [Text.dropStart?_eq_some.1 hd]
      simp
      omega
    · simp at h
  · exact doctype_length h
  · exact doctype_length h
  · simp at h

theorem instruction_length {s r : List Char} {t : Token} (h : instruction s = .ok (t, r)) :
    r.length ≤ s.length := by
  unfold instruction at h
  split at h
  · simp at h
  · split at h
    · simp at h
    · rename_i hc
      have := cut?_length hc
      split at h
      · simp only [Except.ok.injEq, Prod.mk.injEq] at h
        exact h.2 ▸ this
      · split at h <;>
        · simp only [Except.ok.injEq, Prod.mk.injEq] at h
          exact h.2 ▸ this
      · simp only [Except.ok.injEq, Prod.mk.injEq] at h
        exact h.2 ▸ this

theorem closeTag_length {s r : List Char} {t : Token} (h : closeTag s = .ok (t, r)) :
    r.length ≤ s.length := by
  unfold closeTag at h
  split at h
  · simp at h
  · rename_i ht
    simp only [Except.ok.injEq, Prod.mk.injEq] at h
    exact h.2 ▸ Nat.le_of_lt (tag?_length ht)

theorem startTag_length {s r : List Char} {t : Token} (h : startTag s = .ok (t, r)) :
    r.length ≤ s.length := by
  unfold startTag at h
  split at h
  · simp at h
  · rename_i ht
    simp only at h
    split at h
    · simp at h
    · simp only [Except.ok.injEq, Prod.mk.injEq] at h
      exact h.2 ▸ Nat.le_of_lt (tag?_length ht)

theorem markup_length {s r : List Char} {t : Token} (h : markup s = .ok (t, r)) :
    r.length ≤ s.length := by
  unfold markup at h
  split at h
  · simp at h
  · exact Nat.le_trans (bang_length h) (by simp)
  · exact Nat.le_trans (instruction_length h) (by simp)
  · exact Nat.le_trans (closeTag_length h) (by simp)
  · exact startTag_length h

/-- A token takes at least one character. -/
theorem next_length_lt {s r : List Char} {t : Token} (h : next s = .ok (some (t, r))) :
    r.length < s.length := by
  have drop (p : Char → Bool) (l : List Char) : (l.dropWhile p).length ≤ l.length :=
    (List.dropWhile_suffix p).length_le
  have hs := drop isBlank s
  unfold next at h
  split at h
  · simp at h
  · rename_i body hb
    rw [hb] at hs
    rcases hm : markup body with f | ⟨t', r'⟩ <;> rw [hm] at h <;>
      simp only [Except.map, Except.ok.injEq, Option.some.injEq, Prod.mk.injEq, reduceCtorEq] at h
    have := markup_length hm
    simp only [List.length_cons] at hs
    rw [← h.2]
    omega
  · rename_i hne hlt
    unfold characters at h
    split at h
    · simp [Except.map] at h
    · simp only [Except.map, Except.ok.injEq, Option.some.injEq, Prod.mk.injEq] at h
      rw [← h.2]
      cases hb : s.dropWhile isBlank with
      | nil => exact absurd hb hne
      | cons c body =>
        have hc : c ≠ '<' := fun hc => hlt body (by rw [hb, hc])
        have := drop (· ≠ '<') body
        rw [hb] at hs
        simp only [List.dropWhile_cons, ne_eq, hc, not_false_eq_true, decide_true, if_true,
          List.length_cons] at hs this ⊢
        omega

/-! ## All tokens -/

/-- A token and the text that was left before it was read. -/
structure Lexeme where
  token : Token
  before : List Char
  deriving DecidableEq, Repr

/-- The lexemes of a text, and the fault that ends them early with the text left there. -/
structure Scan where
  lexemes : List Lexeme
  fault : Option (Fault × List Char)
  deriving DecidableEq, Repr

/-- Reads tokens until the text ends or a token cannot be read. -/
def scan (text : List Char) : Scan :=
  match _h : next text with
  | .error fault => ⟨[], some (fault, text)⟩
  | .ok none => ⟨[], none⟩
  | .ok (some (token, rest)) =>
    let more := scan rest
    ⟨⟨token, text⟩ :: more.lexemes, more.fault⟩
termination_by text.length
decreasing_by exact next_length_lt _h

end Markup

end SkillCompiler
