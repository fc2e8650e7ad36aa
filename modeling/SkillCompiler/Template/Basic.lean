import SkillCompiler.Log.Entry
import SkillCompiler.Template.Marker

/-!
# Templates

A template is text cut into literal text and markers. Regions between markers are kept, deleted or
extracted, and text is inserted after a marker that serves as an anchor. For each segment there is
a run, the number of segments after it that were inserted there, so that what is inserted later
comes after what was inserted before, also when anchors are nested in inserted text.
-/

namespace SkillCompiler

inductive Segment where
  | text (value : String)
  | marker (m : Marker)
  deriving DecidableEq, Repr

/-- The segment as it is written. -/
def Segment.render : Segment → String
  | text value => value
  | marker m => m.token

/-- Whether the segment is a marker that satisfies `p`. -/
def Segment.isMarker (p : Marker → Bool) : Segment → Bool
  | text _ => false
  | marker m => p m

/-- Segments, and for each of them how many of the segments after it were inserted at it. -/
structure Template where
  segments : List Segment
  runs : List Nat
  length_runs : runs.length = segments.length
  deriving DecidableEq, Repr

/-- The literal segment of some characters, given backwards; no characters make none. -/
def literal (backwards : List Char) : List Segment :=
  if backwards = [] then [] else [.text (String.ofList backwards.reverse)]

theorem markerAt?_length {text rest : List Char} {m : Marker}
    (h : markerAt? text = some (m, rest)) : rest.length < text.length := by
  rw [markerAt?_eq_some h]
  obtain ⟨style, name⟩ := m
  cases style <;> simp [Marker.tokenChars, MarkerStyle.opening, MarkerStyle.closing] <;> omega

/-- Cuts text at its markers, from the left; `before` is literal text already passed, backwards. -/
def segmentsFrom (before : List Char) (text : List Char) : List Segment :=
  match _h : markerAt? text with
  | some (m, rest) => literal before ++ .marker m :: segmentsFrom [] rest
  | none =>
    match text with
    | [] => literal before
    | c :: rest => segmentsFrom (c :: before) rest
termination_by text.length
decreasing_by
  · exact markerAt?_length _h
  · simp

def segmentsOf (text : String) : List Segment := segmentsFrom [] text.toList

def renderSegments (segments : List Segment) : String :=
  segments.foldl (fun text s => text ++ s.render) ""

namespace Template

def parse (text : String) : Template where
  segments := segmentsOf text
  runs := List.replicate (segmentsOf text).length 0
  length_runs := List.length_replicate

def render (t : Template) : String := renderSegments t.segments

/-- The markers still there, in order. -/
def markers (t : Template) : List Marker :=
  t.segments.filterMap fun
    | .marker m => some m
    | .text _ => none

def hasMarker (t : Template) (m : Marker) : Bool := t.markers.contains m

/-! ## Places of markers -/

/-- The places of the markers that satisfy `p`, from the left. -/
def places (t : Template) (p : Marker → Bool) : List Nat :=
  (t.segments.zipIdx.filter fun (s, _) => s.isMarker p).map Prod.snd

/-- The first place of a marker that is not before `start`. -/
def position? (m : Marker) (start : Nat) (segments : List Segment) : Option Nat :=
  ((segments.drop start).findIdx? (· = .marker m)).map (start + ·)

/-- Where a region stands that comes first: the place of its opening marker and, if one follows, of
its closing marker. -/
def firstSpan? (region : Region) (segments : List Segment) : Option (Nat × Option Nat) :=
  (position? region.opening 0 segments).map fun i =>
    (i, position? region.closing (i + 1) segments)

/-- The text between the markers of the first occurrence of a region. -/
def extract (t : Template) (region : Region) : Option String :=
  match firstSpan? region t.segments with
  | some (i, some j) => some (renderSegments ((t.segments.take j).drop (i + 1)))
  | _ => none

/-! ## Removing segments -/

/-- The runs that reach over a place lose one. They are not zero. -/
def shrinkRuns (index : Nat) (runs : List Nat) : List Nat :=
  runs.mapIdx fun owner run => if owner < index ∧ index ≤ owner + run then run - 1 else run

/-- Removes the segment at a place. -/
def removeSegment (index : Nat) (t : Template) : Template where
  segments := t.segments.eraseIdx index
  runs := (shrinkRuns index t.runs).eraseIdx index
  length_runs := by simp [shrinkRuns, List.length_eraseIdx, t.length_runs]

/-- Removes the segments at some places, the last one first. -/
def removeAll (places : List Nat) (t : Template) : Template :=
  places.foldr removeSegment t

/-- Removes the markers that satisfy `p`. Says how many there were. -/
def removeWhere (t : Template) (p : Marker → Bool) : Template × Nat :=
  let doomed := t.places p
  (removeAll doomed t, doomed.length)

/-- Removes the markers of a region and keeps what is between them. -/
def keep (t : Template) (region : Region) : Template :=
  (t.removeWhere fun m => m = region.opening || m = region.closing).1

/-- The places a region takes up: from its opening marker through its closing marker, or the
opening marker alone. -/
def spanPlaces (i : Nat) (j : Option Nat) : List Nat :=
  match j with
  | some j => List.range' i (j + 1 - i)
  | none => [i]

theorem length_removeSegment_le (i : Nat) (t : Template) :
    (removeSegment i t).segments.length ≤ t.segments.length :=
  List.length_eraseIdx_le t.segments i

theorem length_removeSegment_lt {i : Nat} {t : Template} (h : i < t.segments.length) :
    (removeSegment i t).segments.length < t.segments.length := by
  rw [removeSegment, List.length_eraseIdx_of_lt h]
  omega

theorem length_removeAll_le (is : List Nat) (t : Template) :
    (removeAll is t).segments.length ≤ t.segments.length := by
  induction is with
  | nil => exact Nat.le_refl _
  | cons i is ih => exact Nat.le_trans (length_removeSegment_le i _) ih

theorem position?_lt {m : Marker} {start i : Nat} {segments : List Segment}
    (h : position? m start segments = some i) : start ≤ i ∧ i < segments.length := by
  simp only [position?, Option.map_eq_some_iff] at h
  obtain ⟨k, hk, rfl⟩ := h
  have hlt := (List.findIdx?_eq_some_iff_findIdx_eq.1 hk).1
  rw [List.length_drop] at hlt
  omega

/-- Taking a region out makes the template shorter. -/
theorem length_removeSpan_lt {r : Region} {t : Template} {i : Nat} {j : Option Nat}
    (h : firstSpan? r t.segments = some (i, j)) :
    (removeAll (spanPlaces i j) t).segments.length < t.segments.length := by
  simp only [firstSpan?, Option.map_eq_some_iff, Prod.mk.injEq] at h
  obtain ⟨i, hi, rfl, rfl⟩ := h
  cases hj : position? r.closing (i + 1) t.segments with
  | none => exact length_removeSegment_lt (position?_lt hi).2
  | some j =>
    obtain ⟨hij, hlt⟩ := position?_lt hj
    have hrange : List.range' i (j + 1 - i) = List.range' i (j - i) ++ [j] := by
      rw [show j + 1 - i = (j - i) + 1 by omega, List.range'_concat]
      congr 2
      omega
    rw [spanPlaces, hrange, removeAll, List.foldr_append]
    exact Nat.lt_of_le_of_lt (length_removeAll_le _ _) (length_removeSegment_lt hlt)

/-- Removes every occurrence of a region with what is in it. A marker without its partner goes
alone: the opening markers from the left, and the closing ones when no opening marker is left. -/
def delete (t : Template) (region : Region) : Template :=
  match _h : firstSpan? region t.segments with
  | some (i, j) => delete (removeAll (spanPlaces i j) t) region
  | none => (t.removeWhere (· = region.closing)).1
termination_by t.segments.length
decreasing_by exact length_removeSpan_lt _h

/-- What there is to remark about deleting a region: markers without a partner. -/
def deleteNotes (t : Template) (region : Region) : List Entry :=
  match _h : firstSpan? region t.segments with
  | some (i, j) =>
    let rest := deleteNotes (removeAll (spanPlaces i j) t) region
    if j.isSome then rest
    else .warn .template "region has no closing marker, removing marker only"
      [("marker", region.opening.token)] :: rest
  | none =>
    if t.hasMarker region.closing then
      [.warn .template "closing marker without opening marker" [("marker", region.closing.token)]]
    else []
termination_by t.segments.length
decreasing_by exact length_removeSpan_lt _h

/-- Keeps or deletes a region. -/
def toggle (t : Template) (region : Region) (kept : Bool) : Template :=
  if kept then t.keep region else t.delete region

def toggleNotes (t : Template) (region : Region) (kept : Bool) : List Entry :=
  if kept then [] else t.deleteNotes region

/-- Removes every occurrence of an anchor. Says how many there were. -/
def clearAnchor (t : Template) (anchor : Marker) : Template × Nat :=
  t.removeWhere (· = anchor)

/-! ## Inserting text -/

/-- The run at a place and the runs that reach over it grow by `count`. -/
def growRuns (index count : Nat) (runs : List Nat) : List Nat :=
  runs.mapIdx fun owner run =>
    if owner = index ∨ (owner < index ∧ index ≤ owner + run) then run + count else run

/-- Inserts segments at the end of the run of the segment at a place. -/
def insertAt (payload : List Segment) (index : Nat) (t : Template) : Template :=
  let stop := index + 1 + t.runs.getD index 0
  let runs := growRuns index payload.length t.runs
  { segments := t.segments.take stop ++ payload ++ t.segments.drop stop
    runs := runs.take stop ++ List.replicate payload.length 0 ++ runs.drop stop
    length_runs := by simp [runs, growRuns, t.length_runs] }

/-- Inserts text after every occurrence of an anchor and after what was inserted there before.
Anchors inside the new text are not among them. Says how many occurrences there were. -/
def insertAfter (t : Template) (anchor : Marker) (payload : String) : Template × Nat :=
  let occurrences := t.places (· = anchor)
  (occurrences.foldr (insertAt (segmentsOf payload)) t, occurrences.length)

def insertNotes (t : Template) (anchor : Marker) : List Entry :=
  if t.places (· = anchor) = [] then
    [.debug .template "anchor not present" [("anchor", anchor.token)]]
  else []

end Template

end SkillCompiler
