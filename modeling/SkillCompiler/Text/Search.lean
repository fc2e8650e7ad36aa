/-!
# Searching and replacing in text

Text is searched as a list of characters. `cut?` splits at the leftmost occurrence of a needle; the
other searches are stated through it, or through `dropStart?`, which asks whether an occurrence
stands right here. A needle is put back by `cut?_eq_some`.
-/

namespace SkillCompiler

namespace Text

/-- What follows `needle` in a text that starts with it. -/
def dropStart? : (needle text : List Char) → Option (List Char)
  | [], t => some t
  | _ :: _, [] => none
  | c :: n, d :: t => if c = d then dropStart? n t else none

theorem dropStart?_eq_some {n t r : List Char} : dropStart? n t = some r ↔ t = n ++ r := by
  induction n generalizing t with
  | nil => simp [dropStart?]
  | cons c n ih =>
    cases t with
    | nil => simp [dropStart?]
    | cons d t =>
      by_cases h : c = d
      · simp [dropStart?, h, ih]
      · simp [dropStart?, h, Ne.symm h]

/-- The texts before and after the leftmost occurrence of `needle`. -/
def cut? (needle : List Char) : List Char → Option (List Char × List Char)
  | [] => (dropStart? needle []).map ([], ·)
  | c :: t =>
    match dropStart? needle (c :: t) with
    | some rest => some ([], rest)
    | none => (cut? needle t).map fun (before, after) => (c :: before, after)

theorem cut?_eq_some {n t a b : List Char} (h : cut? n t = some (a, b)) : t = a ++ n ++ b := by
  induction t generalizing a with
  | nil =>
    simp only [cut?, Option.map_eq_some_iff, Prod.mk.injEq] at h
    obtain ⟨r, hr, rfl, rfl⟩ := h
    simpa using dropStart?_eq_some.1 hr
  | cons c t ih =>
    rw [cut?] at h
    split at h
    · rename_i rest hr
      simp only [Option.some.injEq, Prod.mk.injEq] at h
      obtain ⟨rfl, rfl⟩ := h
      simpa using dropStart?_eq_some.1 hr
    · simp only [Option.map_eq_some_iff, Prod.mk.injEq] at h
      obtain ⟨⟨x, y⟩, hxy, rfl, rfl⟩ := h
      simp [ih hxy]

/-- Whether `needle` occurs in the text. -/
def contains (needle text : String) : Bool :=
  (cut? needle.toList text.toList).isSome

/-- Puts `new` in place of the leftmost occurrence of `old`, if there is one. -/
def replaceFirst (old new text : String) : String :=
  match cut? old.toList text.toList with
  | some (before, after) => String.ofList (before ++ new.toList ++ after)
  | none => text

/-- The scan behind `replaceAll`: `skip` characters are still part of an occurrence that has
already been replaced. -/
def substitute (old new : List Char) : (skip : Nat) → List Char → List Char
  | _, [] => []
  | skip + 1, _ :: t => substitute old new skip t
  | 0, c :: t =>
    if old.isPrefixOf (c :: t) then new ++ substitute old new (old.length - 1) t
    else c :: substitute old new 0 t

/-- Puts `new` in place of every occurrence of a non-empty `old`, from the left and without overlap;
the empty text stands before every character and at the end. -/
def replaceAll (old new text : String) : String :=
  match old.toList with
  | [] => String.ofList (new.toList ++ text.toList.flatMap fun c => c :: new.toList)
  | _ => String.ofList (substitute old.toList new.toList 0 text.toList)

/-- Puts one character in place of another, everywhere. -/
def replaceChar (old new : Char) (text : String) : String :=
  String.ofList (text.toList.map fun c => if c = old then new else c)

/-- The number of bytes a list of characters takes in UTF-8. -/
def width (cs : List Char) : Nat :=
  (cs.map Char.utf8Size).foldr (· + ·) 0

@[simp] theorem width_append (a b : List Char) : width (a ++ b) = width a + width b := by
  induction a with
  | nil => simp [width]
  | cons c a ih =>
    simp only [width, List.cons_append, List.map_cons, List.foldr_cons] at ih ⊢
    rw [ih, Nat.add_assoc]

end Text

end SkillCompiler
