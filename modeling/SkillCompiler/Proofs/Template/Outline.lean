import SkillCompiler.Proofs.Template.Splice

/-!
# The outline of a template

A template is the listing of a forest: each segment stands before what was inserted at it, and its
run counts what is below it. On the forest the edits are local. An insertion puts the new segments
behind the children of every node that is the anchor, and a removal leaves the children of a removed
node in its place. `edits_refine` says so for every template that is reached by edits.
-/

namespace SkillCompiler

namespace Forest

variable {α : Type}

/-- Trees without children. -/
def leaves : List α → Forest α
  | [] => nil
  | a :: l => node a nil (leaves l)

/-- Puts `new` behind the children of every node whose label satisfies `p`. -/
def appendBelow (p : α → Bool) : Forest α → (new : Forest α) → Forest α
  | nil, _ => nil
  | node a below after, new =>
    node a (below.appendBelow p new ++ if p a then new else nil) (after.appendBelow p new)

/-- How many nodes are below each node, in the order of the listing. -/
def descendants : Forest α → List Nat
  | nil => []
  | node _ below after => below.size :: (below.descendants ++ after.descendants)

/-- Takes out every node whose label satisfies `p`; its children stand in its place. -/
def spliceOut (p : α → Bool) : Forest α → Forest α
  | nil => nil
  | node a below after =>
    if p a then below.spliceOut p ++ after.spliceOut p
    else node a (below.spliceOut p) (after.spliceOut p)

/-- Takes out the marked nodes, where marks stand in the order of the listing; the children of a
node stand in its place. -/
def splice : Forest α → List Bool → Forest α
  | nil, _ => nil
  | node a below after, marks =>
    if marks.headD false then below.splice marks.tail ++ after.splice (marks.drop (below.size + 1))
    else node a (below.splice marks.tail) (after.splice (marks.drop (below.size + 1)))

theorem appendBelow_append (p : α → Bool) (new : Forest α) :
    ∀ s t : Forest α, (s ++ t).appendBelow p new = s.appendBelow p new ++ t.appendBelow p new
  | nil, _ => rfl
  | node a b c, t => by
    rw [node_append, appendBelow, appendBelow_append p new c t, appendBelow, node_append]

theorem size_appendBelow (p : α → Bool) (new : Forest α) :
    ∀ t : Forest α,
      (t.appendBelow p new).size = t.size + new.size * (t.preorder.map p).count true
  | nil => rfl
  | node a b c => by
    have ihb := size_appendBelow p new b
    have ihc := size_appendBelow p new c
    cases hp : p a
    · simp [appendBelow, hp, ihb, ihc, Nat.mul_add]
      omega
    · simp [appendBelow, hp, ihb, ihc, Nat.mul_add]
      omega

theorem size_splice :
    ∀ (t : Forest α) (marks : List Bool),
      (t.splice marks).size + (marks.take t.size).count true = t.size
  | nil, marks => by simp [splice]
  | node a b c, [] => by
    have ihb := size_splice b []
    have ihc := size_splice c []
    simp only [List.take_nil, List.count_nil, Nat.add_zero] at ihb ihc
    simp [splice, ihb, ihc]
  | node a b c, mark :: marks => by
    have ihb := size_splice b marks
    have ihc := size_splice c (marks.drop b.size)
    have hcount : ((mark :: marks).take (b.size + 1 + c.size)).count true =
        (if mark then 1 else 0) + (marks.take b.size).count true +
          ((marks.drop b.size).take c.size).count true := by
      rw [show b.size + 1 + c.size = (b.size + c.size) + 1 by omega, List.take_succ_cons,
        List.take_add, List.count_cons, List.count_append]
      cases mark with
      | false => simp
      | true =>
        simp
        omega
    rw [size_node, hcount, splice]
    cases mark
    · simp
      omega
    · simp
      omega

/-- To take out nodes by their labels is to mark them. -/
theorem splice_map_append (p : α → Bool) :
    ∀ (t : Forest α) (rest : List Bool), t.splice (t.preorder.map p ++ rest) = t.spliceOut p
  | nil, _ => rfl
  | node a b c, rest => by
    have ihb := splice_map_append p b (c.preorder.map p ++ rest)
    have ihc := splice_map_append p c rest
    have hdrop : (b.preorder.map p ++ (c.preorder.map p ++ rest)).drop b.size =
        c.preorder.map p ++ rest := by
      rw [← length_preorder, ← List.length_map p, List.drop_left]
    rw [splice, spliceOut]
    simp only [preorder_node, List.map_cons, List.map_append, List.cons_append, List.append_assoc,
      List.headD_cons, List.tail_cons, List.drop_succ_cons, ihb, hdrop, ihc]

end Forest

/-- The pieces of a forest, each with the number of pieces below it. -/
def Forest.pieces : Forest Segment → List Piece
  | .nil => []
  | .node s below after => ⟨s, below.size⟩ :: (below.pieces ++ after.pieces)

namespace Forest

theorem segment_pieces : ∀ t : Forest Segment, t.pieces.map Piece.segment = t.preorder
  | nil => rfl
  | node s b c => by
    rw [pieces, List.map_cons, List.map_append, segment_pieces b, segment_pieces c, preorder_node]

theorem run_pieces : ∀ t : Forest Segment, t.pieces.map Piece.run = t.descendants
  | nil => rfl
  | node s b c => by
    rw [pieces, List.map_cons, List.map_append, run_pieces b, run_pieces c, descendants]

theorem length_pieces (t : Forest Segment) : t.pieces.length = t.size := by
  rw [← length_preorder, ← segment_pieces, List.length_map]

theorem pieces_append : ∀ s t : Forest Segment, (s ++ t).pieces = s.pieces ++ t.pieces
  | nil, _ => rfl
  | node a b c, t => by
    rw [node_append, pieces, pieces_append c t, pieces, List.cons_append, List.append_assoc]

theorem pieces_leaves : ∀ segments : List Segment, (leaves segments).pieces = segments.map (⟨·, 0⟩)
  | [] => rfl
  | s :: segments => by
    rw [leaves, pieces, pieces_leaves segments]
    rfl

end Forest

namespace Template

/-- Every run ends inside the listing. -/
theorem add_run_lt :
    ∀ {t : Forest Segment} {rest : List Piece} {i : Nat} {p : Piece}, i < t.size →
      (t.pieces ++ rest)[i]? = some p → i + p.run < t.size
  | .nil, _, _, _, hi, _ => by simp at hi
  | .node s b c, rest, 0, p, _, h => by
    simp only [Forest.pieces, List.cons_append, List.getElem?_cons_zero, Option.some.injEq] at h
    subst h
    simp only [Forest.size_node]
    omega
  | .node s b c, rest, i + 1, p, hi, h => by
    simp only [Forest.pieces, List.cons_append, List.getElem?_cons_succ, List.append_assoc] at h
    simp only [Forest.size_node] at hi ⊢
    by_cases hb : i < b.size
    · have := add_run_lt hb h
      omega
    · rw [List.getElem?_append_right (by rw [Forest.length_pieces]; omega),
        Forest.length_pieces] at h
      have := add_run_lt (t := c) (by omega) h
      omega

/-! ## Removing -/

theorem removeMarked_pieces :
    ∀ (t : Forest Segment) (marks : List Bool) (rest : List Piece),
      removeMarked marks (t.pieces ++ rest) =
        (t.splice marks).pieces ++ removeMarked (marks.drop t.size) rest
  | .nil, marks, rest => by simp [Forest.pieces, Forest.splice]
  | .node s b c, [], rest => by
    have hsame : ∀ t : Forest Segment, t.splice [] = t := by
      intro t
      induction t with
      | nil => rfl
      | node a b c ihb ihc => simp [Forest.splice, ihb, ihc]
    rw [hsame, List.drop_nil, removeMarked, removeMarked]
  | .node s b c, mark :: marks, rest => by
    have hb := removeMarked_pieces b marks (c.pieces ++ rest)
    rw [removeMarked_pieces c (marks.drop b.size) rest, List.drop_drop] at hb
    have hsize := Forest.size_splice b marks
    have hdrop : (mark :: marks).drop (b.size + 1 + c.size) = marks.drop (b.size + c.size) := by
      rw [show b.size + 1 + c.size = (b.size + c.size) + 1 by omega, List.drop_succ_cons]
    rw [Forest.size_node, hdrop, Forest.pieces, List.cons_append, List.append_assoc, removeMarked,
      hb, Forest.splice]
    cases mark
    · have hrun : b.size - (marks.take b.size).count true = (b.splice marks).size := by omega
      simp [Forest.pieces, hrun]
    · simp [Forest.pieces_append]

theorem removeMarked_pieces_map (p : Segment → Bool) (t : Forest Segment) :
    removeMarked (t.pieces.map fun x => p x.segment) t.pieces = (t.spliceOut p).pieces := by
  have hmarks : (t.pieces.map fun x => p x.segment) = t.preorder.map p := by
    rw [← Forest.segment_pieces, List.map_map]
    rfl
  have h := removeMarked_pieces t (t.preorder.map p) []
  have hsplice := Forest.splice_map_append p t []
  rw [List.append_nil] at hsplice
  rwa [List.append_nil, removeMarked_nil, List.append_nil, hsplice, ← hmarks] at h

/-! ## Inserting -/

/-- Inserts pieces behind what is below each marked piece. -/
def insertMarked (payload : List Piece) : List Bool → List Piece → List Piece
  | [], pieces => pieces
  | _ :: _, [] => []
  | mark :: marks, p :: pieces =>
    let pieces := insertMarked payload marks pieces
    let run := p.run + payload.length * (marks.take p.run).count true
    if mark then
      ⟨p.segment, run + payload.length⟩ :: (pieces.take run ++ payload ++ pieces.drop run)
    else ⟨p.segment, run⟩ :: pieces

/-- What insertions behind a piece make of its run. -/
theorem runAfter_add (n : Nat) (marks : List Bool) (run : Nat) :
    runAfter (· + n) (markedPlaces marks) run = run + n * (marks.take run).count true := by
  induction marks generalizing run with
  | nil => simp [markedPlaces, runAfter]
  | cons mark marks ih =>
    cases run with
    | zero => rw [runAfter_zero]; simp
    | succ k =>
      rw [runAfter_cons_succ (fun r _ => by omega), ih, List.take_succ_cons]
      cases mark
      · simp
        omega
      · simp [Nat.mul_add]
        omega

theorem foldr_insertAt_markedPlaces (payload : List Piece) :
    ∀ (marks : List Bool) (pieces : List Piece),
      (markedPlaces marks).foldr (Piece.insertAt payload) pieces = insertMarked payload marks pieces
  | [], _ => by simp [markedPlaces, insertMarked]
  | mark :: marks, [] => by
    have hnil : ∀ is : List Nat, is.foldr (Piece.insertAt payload) [] = [] := by
      intro is
      induction is with
      | nil => rfl
      | cons i is ih => rw [List.foldr_cons, ih, Piece.insertAt]
    rw [hnil, insertMarked]
  | mark :: marks, p :: pieces => by
    have hs := foldr_map_succ (Piece.insertAt payload) (· + payload.length)
      (fun _ _ _ => rfl) p pieces (markedPlaces marks)
    rw [runAfter_add, foldr_insertAt_markedPlaces payload marks pieces] at hs
    rw [markedPlaces, List.foldr_append, hs]
    cases mark <;> simp [insertMarked, Piece.insertAt]

theorem insertMarked_pieces (p : Segment → Bool) (new : Forest Segment) :
    ∀ (t : Forest Segment) (marks : List Bool) (rest : List Piece),
      insertMarked new.pieces (t.preorder.map p ++ marks) (t.pieces ++ rest) =
        (t.appendBelow p new).pieces ++ insertMarked new.pieces marks rest
  | .nil, _, _ => rfl
  | .node s b c, marks, rest => by
    have hb := insertMarked_pieces p new b (c.preorder.map p ++ marks) (c.pieces ++ rest)
    rw [insertMarked_pieces p new c marks rest] at hb
    have htake : (b.preorder.map p ++ (c.preorder.map p ++ marks)).take b.size =
        b.preorder.map p := by
      rw [← Forest.length_preorder, ← List.length_map p, List.take_left]
    have hsize := Forest.size_appendBelow p new b
    have hlen := Forest.length_pieces (b.appendBelow p new)
    rw [Forest.preorder_node, List.map_cons, List.map_append, List.cons_append, List.append_assoc,
      Forest.pieces, List.cons_append, List.append_assoc, insertMarked, hb]
    simp only [htake, Forest.length_pieces, ← hsize, Forest.appendBelow, Forest.pieces]
    cases hp : p s
    · simp
    · simp only [if_true, ← hlen, List.take_left, List.drop_left]
      simp [Forest.pieces_append, Forest.length_pieces]

/-! ## Edits -/

/-- An edit of a template. -/
inductive Edit where
  | insertAfter (anchor : Marker) (payload : String)
  | clearAnchor (anchor : Marker)
  | keep (region : Region)
  | delete (region : Region)
  | toggle (region : Region) (kept : Bool)

namespace Edit

def apply (t : Template) : Edit → Template
  | insertAfter anchor payload => (t.insertAfter anchor payload).1
  | clearAnchor anchor => (t.clearAnchor anchor).1
  | keep region => t.keep region
  | delete region => t.delete region
  | toggle region kept => t.toggle region kept

/-- What an edit does to the forest behind a template. -/
def onForest (t : Forest Segment) : Edit → Forest Segment
  | insertAfter anchor payload =>
    t.appendBelow (· = .marker anchor) (.leaves (segmentsOf payload))
  | clearAnchor anchor => t.spliceOut (· = .marker anchor)
  | keep region => t.spliceOut fun s => s = .marker region.opening || s = .marker region.closing
  | delete region => t.splice (taken region false t.preorder)
  | toggle region true =>
    t.spliceOut fun s => s = .marker region.opening || s = .marker region.closing
  | toggle region false => t.splice (taken region false t.preorder)

end Edit

theorem length_markedPlaces : ∀ marks : List Bool, (markedPlaces marks).length = marks.count true
  | [] => rfl
  | mark :: marks => by
    rw [markedPlaces, List.length_append, List.length_map, length_markedPlaces marks]
    cases mark <;> simp
    omega

theorem lt_of_mem_markedPlaces :
    ∀ {marks : List Bool} {i : Nat}, i ∈ markedPlaces marks → i < marks.length
  | [], _, h => by simp [markedPlaces] at h
  | mark :: marks, i, h => by
    rw [markedPlaces, List.mem_append, List.mem_map] at h
    rcases h with h | ⟨k, hk, rfl⟩
    · cases mark <;> simp at h
      simp [h]
    · exact Nat.succ_lt_succ (lt_of_mem_markedPlaces hk)

/-- As many places are found as there are markers. -/
theorem length_places (t : Template) (m : Marker) :
    (t.places (· = m)).length = t.segments.count (.marker m) := by
  rw [places_eq_markedPlaces, length_markedPlaces, isMarker_eq, List.count_eq_countP,
    List.countP_map, List.count_eq_countP]
  congr 1
  funext s
  by_cases hs : s = .marker m <;> simp [hs]

/-- The places stay in range, for insertions only make a template longer. -/
theorem pieces_foldr_insertAt (payload : List Segment) (t : Template) :
    ∀ is : List Nat, (∀ i ∈ is, i < t.segments.length) →
      t.segments.length ≤ (is.foldr (insertAt payload) t).segments.length ∧
        (is.foldr (insertAt payload) t).pieces =
          is.foldr (Piece.insertAt (payload.map (⟨·, 0⟩))) t.pieces
  | [], _ => ⟨Nat.le_refl _, rfl⟩
  | i :: is, h => by
    obtain ⟨hle, ih⟩ := pieces_foldr_insertAt payload t is fun k hk =>
      h k (List.mem_cons_of_mem _ hk)
    have hi := Nat.lt_of_lt_of_le (h i (List.mem_cons_self ..)) hle
    rw [List.foldr_cons, List.foldr_cons, ← ih, ← pieces_insertAt payload hi]
    refine ⟨Nat.le_trans hle ?_, rfl⟩
    simp only [insertAt, List.length_append, List.length_take, List.length_drop]
    omega

variable {t : Template} {f : Forest Segment}

theorem segments_eq_preorder (h : t.pieces = f.pieces) : t.segments = f.preorder := by
  rw [← segment_pieces, h, Forest.segment_pieces]

theorem runs_eq_descendants (h : t.pieces = f.pieces) : t.runs = f.descendants := by
  rw [← run_pieces, h, Forest.run_pieces]

theorem pieces_insertAfter (h : t.pieces = f.pieces) (anchor : Marker) (payload : String) :
    (t.insertAfter anchor payload).1.pieces =
      (f.appendBelow (· = .marker anchor) (.leaves (segmentsOf payload))).pieces := by
  have hplaces : ∀ i ∈ t.places (· = anchor), i < t.segments.length := by
    intro i hi
    rw [places_eq_markedPlaces] at hi
    simpa using lt_of_mem_markedPlaces hi
  have hins := insertMarked_pieces (· = .marker anchor) (.leaves (segmentsOf payload)) f [] []
  rw [List.append_nil, List.append_nil, Forest.pieces_leaves] at hins
  rw [insertAfter, (pieces_foldr_insertAt _ t _ hplaces).2, places_eq_markedPlaces,
    foldr_insertAt_markedPlaces, isMarker_eq, h, segments_eq_preorder h, hins]
  simp [insertMarked]

theorem pieces_removeWhere_eq (h : t.pieces = f.pieces) (p : Marker → Bool) :
    (t.removeWhere p).1.pieces = (f.spliceOut (Segment.isMarker p)).pieces := by
  rw [pieces_removeWhere, ← segment_pieces, h, List.map_map]
  exact removeMarked_pieces_map (Segment.isMarker p) f

theorem isMarker_or (region : Region) :
    (Segment.isMarker fun m => m = region.opening || m = region.closing) = fun s =>
      decide (s = .marker region.opening) || decide (s = .marker region.closing) := by
  funext s
  cases s <;> simp [Segment.isMarker]

theorem pieces_keep (h : t.pieces = f.pieces) (region : Region) :
    (t.keep region).pieces =
      (f.spliceOut fun s =>
        s = .marker region.opening || s = .marker region.closing).pieces := by
  rw [keep, pieces_removeWhere_eq h, isMarker_or]

theorem pieces_delete (h : t.pieces = f.pieces) (region : Region) :
    (t.delete region).pieces = (f.splice (taken region false f.preorder)).pieces := by
  have hr := removeMarked_pieces f (taken region false f.preorder) []
  rw [List.append_nil, removeMarked_nil, List.append_nil] at hr
  rw [pieces_delete_eq_removeMarked, segments_eq_preorder h, h, hr]

theorem pieces_apply (h : t.pieces = f.pieces) (e : Edit) :
    (e.apply t).pieces = (e.onForest f).pieces := by
  cases e with
  | insertAfter anchor payload => exact pieces_insertAfter h anchor payload
  | clearAnchor anchor =>
    rw [Edit.apply, clearAnchor, pieces_removeWhere_eq h, isMarker_eq]
    rfl
  | keep region => exact pieces_keep h region
  | delete region => exact pieces_delete h region
  | toggle region kept =>
    cases kept with
    | true => exact pieces_keep h region
    | false => exact pieces_delete h region

theorem pieces_foldl_apply :
    ∀ (edits : List Edit) {t : Template} {f : Forest Segment}, t.pieces = f.pieces →
      (edits.foldl Edit.apply t).pieces = (edits.foldl Edit.onForest f).pieces
  | [], _, _, h => h
  | e :: edits, _, _, h => pieces_foldl_apply edits (pieces_apply h e)

/-- Insertions in the order of their calls, on a forest. -/
def insertAll (f : Forest Segment) (insertions : List (Marker × String)) : Forest Segment :=
  (insertions.map fun (anchor, payload) => Edit.insertAfter anchor payload).foldl Edit.onForest f

/-- What insertions put below a node: the payloads directed at it, in the order of the calls, each
with what later calls insert into it. -/
def contributed (s : Segment) : List (Marker × String) → Forest Segment
  | [] => .nil
  | (anchor, payload) :: later =>
    (if s = .marker anchor then insertAll (.leaves (segmentsOf payload)) later else .nil) ++
      contributed s later

theorem insertAll_cons (f : Forest Segment) (anchor : Marker) (payload : String)
    (later : List (Marker × String)) :
    insertAll f ((anchor, payload) :: later) =
      insertAll (f.appendBelow (· = .marker anchor) (.leaves (segmentsOf payload))) later := rfl

theorem pieces_foldl_insertAfter :
    ∀ (insertions : List (Marker × String)) {t : Template} {f : Forest Segment},
      t.pieces = f.pieces →
        (insertions.foldl (fun t (anchor, payload) => (t.insertAfter anchor payload).1) t).pieces =
          (insertAll f insertions).pieces
  | [], _, _, h => h
  | (anchor, payload) :: later, _, _, h =>
    pieces_foldl_insertAfter later (pieces_insertAfter h anchor payload)

theorem insertAll_nil : ∀ insertions : List (Marker × String),
    insertAll .nil insertions = .nil
  | [] => rfl
  | (_, _) :: later => insertAll_nil later

theorem insertAll_append :
    ∀ (insertions : List (Marker × String)) (f g : Forest Segment),
      insertAll (f ++ g) insertions = insertAll f insertions ++ insertAll g insertions
  | [], _, _ => rfl
  | (anchor, payload) :: later, f, g => by
    rw [insertAll_cons, Forest.appendBelow_append, insertAll_append later, insertAll_cons,
      insertAll_cons]

/-- Whatever else is inserted in between, what is inserted at a node stands below it in the order of
the calls. -/
theorem insertAll_node :
    ∀ (insertions : List (Marker × String)) (s : Segment) (below after : Forest Segment),
      insertAll (.node s below after) insertions =
        .node s (insertAll below insertions ++ contributed s insertions)
          (insertAll after insertions)
  | [], s, below, after => by
    rw [contributed, Forest.append_nil]
    rfl
  | (anchor, payload) :: later, s, below, after => by
    rw [insertAll_cons, Forest.appendBelow, insertAll_node later, insertAll_append, insertAll_cons,
      insertAll_cons, contributed, Forest.append_assoc]
    split
    · rename_i hs
      rw [if_pos (by simpa using hs)]
    · rename_i hs
      rw [if_neg (by simpa using hs), insertAll_nil]

/-- A template that is reached by edits is the listing of a forest that is reached by the same edits
on forests, and its runs count what is below each node. An edit at an anchor says how many nodes are
the anchor. -/
theorem edits_refine (text : String) (edits : List Edit) :
    let t := edits.foldl Edit.apply (parse text)
    let f := edits.foldl Edit.onForest (.leaves (segmentsOf text))
    t.segments = f.preorder ∧ t.runs = f.descendants ∧ t.runs.length = t.segments.length ∧
      (∀ i run, t.runs[i]? = some run → i + run < t.segments.length) ∧
      (∀ anchor payload,
        (t.insertAfter anchor payload).2 = f.preorder.count (.marker anchor)) ∧
      (∀ anchor, (t.clearAnchor anchor).2 = f.preorder.count (.marker anchor)) ∧
      ∀ insertions : List (Marker × String),
        let later := insertions.foldl
          (fun t (anchor, payload) => (t.insertAfter anchor payload).1) t
        later.segments = (insertAll f insertions).preorder ∧
        later.runs = (insertAll f insertions).descendants ∧
        ∀ s below after, insertAll (.node s below after) insertions =
          .node s (insertAll below insertions ++ contributed s insertions)
            (insertAll after insertions) := by
  intro t f
  have hparse : (parse text).pieces = (Forest.leaves (segmentsOf text)).pieces := by
    rw [pieces_parse, Forest.pieces_leaves]
  have hpieces : t.pieces = f.pieces := pieces_foldl_apply edits hparse
  have hsegments := segments_eq_preorder hpieces
  refine ⟨hsegments, runs_eq_descendants hpieces, t.length_runs, fun i run hrun => ?_,
    fun anchor payload => ?_, fun anchor => ?_, fun insertions => ?_⟩
  · rw [← run_pieces, List.getElem?_map, Option.map_eq_some_iff] at hrun
    obtain ⟨p, hp, rfl⟩ := hrun
    have hi : i < f.size := by
      rw [← Forest.length_pieces, ← hpieces]
      exact (List.getElem?_eq_some_iff.1 hp).1
    rw [hpieces, ← List.append_nil f.pieces] at hp
    rw [hsegments, Forest.length_preorder]
    exact add_run_lt hi hp
  · rw [← hsegments]
    exact length_places t anchor
  · rw [← hsegments]
    exact length_places t anchor
  · have hlater := pieces_foldl_insertAfter insertions hpieces
    exact ⟨segments_eq_preorder hlater, runs_eq_descendants hlater, insertAll_node insertions⟩

end Template

end SkillCompiler
