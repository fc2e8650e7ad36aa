import SkillCompiler.Text.Search

/-!
# Markers

A marker is a capital name in one of three comment styles. A region is what stands between a marker
and the one with `END_` before its name. `markerAt?` reads a marker at the front of a text.
-/

namespace SkillCompiler

/-- The comment style of a marker. -/
inductive MarkerStyle where
  | block
  | hash
  | angle
  deriving DecidableEq, Repr

namespace MarkerStyle

def all : List MarkerStyle := [block, hash, angle]

/-- What stands before the name. -/
def opening : MarkerStyle → List Char
  | block => ['/', '*']
  | hash => ['#']
  | angle => ['<', '!', '-', '-']

/-- What stands after the name. -/
def closing : MarkerStyle → List Char
  | block => ['*', '/']
  | hash => ['#']
  | angle => ['-', '-', '>']

end MarkerStyle

structure Marker where
  style : MarkerStyle
  name : String
  deriving DecidableEq, Repr

namespace Marker

def tokenChars (m : Marker) : List Char :=
  m.style.opening ++ m.name.toList ++ m.style.closing

/-- The marker as it is written. -/
def token (m : Marker) : String := String.ofList m.tokenChars

/-- The first character of a marker name. -/
def isHead (c : Char) : Bool := 'A' ≤ c && c ≤ 'Z'

/-- The other characters of a marker name. -/
def isTail (c : Char) : Bool := isHead c || ('0' ≤ c && c ≤ '9') || c = '_'

end Marker

/-- The marker of a style at the front of a text, and the text after it. -/
def styledAt? (style : MarkerStyle) (text : List Char) : Option (Marker × List Char) :=
  match Text.dropStart? style.opening text with
  | some (c :: body) =>
    if Marker.isHead c then
      (Text.dropStart? style.closing (body.dropWhile Marker.isTail)).map fun rest =>
        (⟨style, String.ofList (c :: body.takeWhile Marker.isTail)⟩, rest)
    else none
  | _ => none

/-- The marker at the front of a text, and the text after it. -/
def markerAt? (text : List Char) : Option (Marker × List Char) :=
  MarkerStyle.all.findSome? (styledAt? · text)

/-- A marker is read off the text that it is written as. -/
theorem markerAt?_eq_some {text rest : List Char} {m : Marker}
    (h : markerAt? text = some (m, rest)) : text = m.tokenChars ++ rest := by
  obtain ⟨style, -, hs⟩ := List.exists_of_findSome?_eq_some h
  unfold styledAt? at hs
  split at hs
  · rename_i c body hb
    split at hs
    · simp only [Option.map_eq_some_iff, Prod.mk.injEq] at hs
      obtain ⟨r, hr, rfl, rfl⟩ := hs
      have := List.takeWhile_append_dropWhile (p := Marker.isTail) (l := body)
      rw [Text.dropStart?_eq_some.1 hr] at this
      rw [Text.dropStart?_eq_some.1 hb]
      simp [Marker.tokenChars, this]
    · simp at hs
  · simp at hs

/-- A region between two markers. -/
structure Region where
  opening : Marker
  closing : Marker
  deriving DecidableEq, Repr

namespace Region

def named (style : MarkerStyle) (name : String) : Region :=
  ⟨⟨style, name⟩, ⟨style, "END_" ++ name⟩⟩

/-- A region in each style. -/
def everyStyle (name : String) : List Region :=
  MarkerStyle.all.map (named · name)

end Region

end SkillCompiler
