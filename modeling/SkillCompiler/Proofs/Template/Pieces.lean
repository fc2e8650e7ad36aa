import SkillCompiler.Template.Basic

/-!
# A template piece by piece

A piece is a segment together with its run, and a template is its list of pieces
(`ofPieces_pieces`). The edits correct the two lists of a template place by place; on the list of
pieces they are recursions that pass by one piece after another. `pieces_removeSegment` and
`pieces_insertAt` say that both ways of editing are the same.
-/

namespace SkillCompiler

/-- A segment and its run. -/
structure Piece where
  segment : Segment
  run : Nat
  deriving DecidableEq, Repr

namespace Piece

/-- Removes the piece at a place. A piece whose run reaches over that place has one piece fewer in
its run. -/
def removeAt : Nat → List Piece → List Piece
  | _, [] => []
  | 0, _ :: rest => rest
  | i + 1, p :: rest =>
    { p with run := if i + 1 ≤ p.run then p.run - 1 else p.run } :: removeAt i rest

/-- Inserts pieces at the end of the run of the piece at a place. The runs that reach over that
place grow. -/
def insertAt (payload : List Piece) : Nat → List Piece → List Piece
  | _, [] => []
  | 0, p :: rest =>
    { p with run := p.run + payload.length } :: (rest.take p.run ++ payload ++ rest.drop p.run)
  | i + 1, p :: rest =>
    { p with run := if i + 1 ≤ p.run then p.run + payload.length else p.run } ::
      insertAt payload i rest

end Piece

namespace Template

def pieces (t : Template) : List Piece := List.zipWith Piece.mk t.segments t.runs

def ofPieces (pieces : List Piece) : Template where
  segments := pieces.map Piece.segment
  runs := pieces.map Piece.run
  length_runs := by simp

theorem length_pieces (t : Template) : t.pieces.length = t.segments.length := by
  simp [pieces, t.length_runs]

theorem segment_pieces (t : Template) : t.pieces.map Piece.segment = t.segments :=
  List.ext_getElem (by rw [List.length_map, length_pieces]) fun i _ _ => by simp [pieces]

theorem run_pieces (t : Template) : t.pieces.map Piece.run = t.runs :=
  List.ext_getElem (by rw [List.length_map, length_pieces, t.length_runs]) fun i _ _ => by
    simp [pieces]

theorem ofPieces_pieces (t : Template) : ofPieces t.pieces = t := by
  rcases t with ⟨segments, runs, h⟩
  simp only [ofPieces, mk.injEq]
  exact ⟨segment_pieces ⟨segments, runs, h⟩, run_pieces ⟨segments, runs, h⟩⟩

theorem pieces_ofPieces (pieces : List Piece) : (ofPieces pieces).pieces = pieces := by
  simp [Template.pieces, ofPieces]

theorem zipWith_replicate_zero (segments : List Segment) :
    List.zipWith Piece.mk segments (List.replicate segments.length 0) =
      segments.map (⟨·, 0⟩) :=
  List.ext_getElem (by simp) fun i _ _ => by simp

theorem pieces_parse (text : String) : (parse text).pieces = (segmentsOf text).map (⟨·, 0⟩) :=
  zipWith_replicate_zero (segmentsOf text)

/-! ## One edit -/

theorem shrinkRuns_zero (runs : List Nat) : shrinkRuns 0 runs = runs :=
  List.ext_getElem (by simp [shrinkRuns]) fun i _ _ => by simp [shrinkRuns]

theorem shrinkRuns_succ (i run : Nat) (runs : List Nat) :
    shrinkRuns (i + 1) (run :: runs) =
      (if i + 1 ≤ run then run - 1 else run) :: shrinkRuns i runs := by
  simp only [shrinkRuns, List.mapIdx_cons, Nat.zero_add, Nat.succ_pos, true_and,
    Nat.add_lt_add_iff_right, Nat.add_right_comm _ 1, Nat.add_le_add_iff_right]

theorem growRuns_zero (count run : Nat) (runs : List Nat) :
    growRuns 0 count (run :: runs) = (run + count) :: runs :=
  List.ext_getElem (by simp [growRuns]) fun i _ _ => by cases i <;> simp [growRuns]

theorem growRuns_succ (i count run : Nat) (runs : List Nat) :
    growRuns (i + 1) count (run :: runs) =
      (if i + 1 ≤ run then run + count else run) :: growRuns i count runs := by
  simp only [growRuns, List.mapIdx_cons, Nat.zero_add, Nat.succ_pos, true_and,
    Nat.add_lt_add_iff_right, Nat.add_right_comm _ 1, Nat.add_le_add_iff_right,
    Nat.add_right_cancel_iff, (Nat.succ_ne_zero i).symm, false_or]

theorem zipWith_removeAt :
    ∀ (i : Nat) (segments : List Segment) (runs : List Nat),
      List.zipWith Piece.mk (segments.eraseIdx i) ((shrinkRuns i runs).eraseIdx i) =
        Piece.removeAt i (List.zipWith Piece.mk segments runs)
  | i, [], runs => by simp [Piece.removeAt]
  | i, s :: segments, [] => by simp [Piece.removeAt, shrinkRuns]
  | 0, s :: segments, r :: runs => by simp [Piece.removeAt, shrinkRuns_zero]
  | i + 1, s :: segments, r :: runs => by
    rw [shrinkRuns_succ, List.eraseIdx_cons_succ, List.eraseIdx_cons_succ,
      List.zipWith_cons_cons, zipWith_removeAt i segments runs, List.zipWith_cons_cons,
      Piece.removeAt]

theorem pieces_removeSegment (i : Nat) (t : Template) :
    (removeSegment i t).pieces = Piece.removeAt i t.pieces :=
  zipWith_removeAt i t.segments t.runs

/-- New segments have no runs yet. -/
theorem zipWith_splice (payload : List Segment) (k : Nat) {segments : List Segment}
    {runs : List Nat} (h : runs.length = segments.length) :
    List.zipWith Piece.mk (segments.take k ++ payload ++ segments.drop k)
        (runs.take k ++ List.replicate payload.length 0 ++ runs.drop k) =
      (List.zipWith Piece.mk segments runs).take k ++ payload.map (⟨·, 0⟩) ++
        (List.zipWith Piece.mk segments runs).drop k := by
  rw [List.zipWith_append (by simp [h]), List.zipWith_append (by simp [h]), List.take_zipWith,
    List.drop_zipWith, zipWith_replicate_zero]

theorem zipWith_insertAt (payload : List Segment) :
    ∀ {i : Nat} {segments : List Segment} {runs : List Nat}, runs.length = segments.length →
      i < segments.length →
      List.zipWith Piece.mk
          (segments.take (i + 1 + runs.getD i 0) ++ payload ++
            segments.drop (i + 1 + runs.getD i 0))
          ((growRuns i payload.length runs).take (i + 1 + runs.getD i 0) ++
            List.replicate payload.length 0 ++
            (growRuns i payload.length runs).drop (i + 1 + runs.getD i 0)) =
        Piece.insertAt (payload.map (⟨·, 0⟩)) i (List.zipWith Piece.mk segments runs)
  | i, [], _, _, hi => by simp at hi
  | i, s :: segments, [], h, _ => by simp at h
  | 0, s :: segments, r :: runs, h, _ => by
    have hs := zipWith_splice payload r (Nat.succ.inj h)
    rw [growRuns_zero]
    simp [Piece.insertAt, Nat.add_comm 1, ← hs]
  | i + 1, s :: segments, r :: runs, h, hi => by
    have ih := zipWith_insertAt payload (Nat.succ.inj h) (Nat.lt_of_succ_lt_succ hi)
    rw [growRuns_succ]
    simp [Piece.insertAt, ← ih, Nat.add_right_comm _ 1]

theorem pieces_insertAt (payload : List Segment) {i : Nat} {t : Template}
    (h : i < t.segments.length) :
    (insertAt payload i t).pieces = Piece.insertAt (payload.map (⟨·, 0⟩)) i t.pieces :=
  zipWith_insertAt payload t.length_runs h

end Template

end SkillCompiler
