import SkillCompiler.Proofs.File.Tree

/-!
# Where paths lead

In a tree without links the text of a path alone says where it leads from a working directory
(`locate`), if it leads anywhere. A path below a directory may still climb out of it. `IsConfined`
says that it does not, wherever the directory is (`isConfined_iff`).
-/

namespace SkillCompiler

namespace Path

/-- A path that leads to a directory or below it, from every working directory. -/
def IsBelow (dir path : Path) : Prop := ∀ home, locate home dir <+: locate home path

end Path

open SkillCompiler.Path

/-! ## Paths in a tree -/

namespace FileTree

variable {tree : FileTree}

/-- A tree in which nothing sends a path elsewhere. -/
def LinkFree (tree : FileTree) : Prop := ∀ l, tree.linkAt? l = none

theorem linkFree_of_nodes (h : ∀ entry ∈ tree.nodes, entry.2.isLink = false) : tree.LinkFree := by
  intro l
  unfold linkAt? lookup?
  split
  · rfl
  · cases hfind : tree.nodes.find? fun entry => entry.1 = l with
    | none => rfl
    | some entry => simp [h entry (List.mem_of_find?_eq_some hfind)]

theorem LinkFree.isLink_eq_false (hfree : tree.LinkFree) (path : Path) :
    tree.isLink path = false := by
  unfold isLink
  split
  · rw [hfree]
    rfl
  · rfl

theorem LinkFree.eq_of_way (hfree : tree.LinkFree) {links : Nat} {location found : Location}
    {segments : List String} (way : tree.Way links location segments found) :
    found = segments.foldl Location.step location := by
  induction way with
  | done => rfl
  | on hnext _ _ ih => rw [ih, List.foldl_cons, (advance_eq_ok.1 hnext).2.2]
  | symbolic _ hlink _ _ => cases (hfree _).symm.trans hlink
  | hard _ hlink => cases (hfree _).symm.trans hlink

theorem LinkFree.eq_of_resolve (hfree : tree.LinkFree) {path : Path} {location : Location}
    (h : tree.resolve path = .ok location) : location = locate tree.home path :=
  hfree.eq_of_way (resolve_eq_ok.1 h).2

end FileTree

namespace Path

/-! ## Joined paths -/

theorem segments_slash (a b : String) : segments (a ++ "/" ++ b) = segments a ++ segments b := by
  have hlist : (a ++ "/" ++ b).toList = a.toList ++ '/' :: b.toList := by simp
  rw [segments, hlist, List.splitOn_append_cons_self, List.map_append]
  rfl

theorem exists_eq_append_slash {path : Path} (h : path.toList.getLast? = some '/') :
    ∃ front, path = front ++ "/" := by
  obtain ⟨front, hfront⟩ := List.getLast?_eq_some_iff.1 h
  refine ⟨String.ofList front, ?_⟩
  rw [← String.toList_inj, hfront]
  simp

theorem segments_append_slash (a : Path) : segments (a ++ "/") = segments a ++ [""] := by
  have h := segments_slash a ""
  rwa [String.append_empty] at h

theorem locate_empty (home : Location) : locate home "" = home := rfl

theorem locate_slash (home : Location) {base : Path} (hne : base ≠ "") :
    locate home (base ++ "/") = locate home base := by
  have hlist : base.toList ≠ [] := by simpa using hne
  have habsolute : isAbsolute (base ++ "/") = isAbsolute base := by
    simp [isAbsolute, List.head?_append, List.head?_eq_some_head hlist]
  rw [locate, segments_append_slash, habsolute, List.foldl_append]
  rfl

theorem locate_slash_append (home : Location) (base path : Path) :
    locate home (base ++ "/" ++ path) =
      path.segments.foldl Location.step (locate home (base ++ "/")) := by
  have habsolute : isAbsolute (base ++ "/" ++ path) = isAbsolute (base ++ "/") := by
    simp [isAbsolute, List.head?_append]
  rw [locate, locate, segments_slash, segments_append_slash, habsolute, List.foldl_append,
    List.foldl_append]
  rfl

/-- A path below another leads on from where that one leads. -/
theorem locate_join (home : Location) (base path : Path) :
    locate home (base.join path) = locate (locate home base) path := by
  unfold join
  by_cases habsolute : isAbsolute path
  · rw [if_pos habsolute, locate, locate, if_pos habsolute, if_pos habsolute]
  · have hrest : ∀ l, locate l path = path.segments.foldl Location.step l := fun l => by
      rw [locate, if_neg habsolute]
    rw [if_neg habsolute, hrest]
    by_cases hempty : base = ""
    · rw [hempty, locate_empty, ← hrest]
      rfl
    · by_cases hslash : base.toList.getLast? = some '/'
      · obtain ⟨front, hbase⟩ := exists_eq_append_slash hslash
        rw [if_pos (by simp [hslash]), hbase, locate_slash_append]
      · rw [if_neg (by simp [hslash, hempty]), locate_slash_append, locate_slash home hempty]

/-! ## Paths that do not climb out -/

/-- Whether segments never climb above where they start by more than some levels. -/
def stays : (depth : Nat) → List String → Bool
  | _, [] => true
  | depth, segment :: rest =>
    if segment.isEmpty || segment = "." then stays depth rest
    else if segment = ".." then
      match depth with
      | 0 => false
      | depth + 1 => stays depth rest
    else stays (depth + 1) rest

/-- A path that may leave the directory it starts from, but not the one above it. -/
def IsConfined (path : Path) : Prop := path.isAbsolute = false ∧ stays 1 path.segments

instance (path : Path) : Decidable (IsConfined path) :=
  inferInstanceAs (Decidable (_ ∧ _))

theorem exists_of_stays (base : Location) :
    ∀ {segments : List String} {inner : Location}, stays inner.length segments →
      ∃ inner', segments.foldl Location.step (base ++ inner) = base ++ inner'
  | [], inner, _ => ⟨inner, rfl⟩
  | segment :: rest, inner, h => by
    unfold stays at h
    rw [List.foldl_cons]
    unfold Location.step
    by_cases hvoid : segment.isEmpty || segment = "."
    · rw [if_pos hvoid] at h ⊢
      exact exists_of_stays base h
    · rw [if_neg hvoid] at h ⊢
      by_cases hup : segment = ".."
      · rw [if_pos hup] at h ⊢
        cases inner with
        | nil => cases h
        | cons name inner =>
          rw [List.dropLast_append_of_ne_nil (by simp)]
          exact exists_of_stays base (by simpa using h)
      · rw [if_neg hup] at h ⊢
        rw [List.append_assoc]
        exact exists_of_stays base (by simpa using h)

theorem mem_foldl_step {name : String} :
    ∀ {segments : List String} {location : Location},
      name ∈ segments.foldl Location.step location → name ∈ location ∨ name ∈ segments
  | [], _, h => .inl h
  | segment :: rest, location, h => by
    rw [List.foldl_cons] at h
    rcases mem_foldl_step h with h | h
    · unfold Location.step at h
      split at h
      · exact .inl h
      split at h
      · exact .inl (List.dropLast_subset _ h)
      · rcases List.mem_append.1 h with h | h
        · exact .inl h
        · exact .inr (List.mem_singleton.1 h ▸ List.mem_cons_self)
    · exact .inr (List.mem_cons_of_mem _ h)

/-- Segments that climb too far lose the name they started below. -/
theorem notMem_of_not_stays {top : String} :
    ∀ {segments : List String} {inner : Location}, ¬ stays inner.length segments →
      top ∉ segments → top ∉ inner → top ∉ segments.foldl Location.step (top :: inner)
  | [], _, h, _, _ => absurd rfl h
  | segment :: rest, inner, h, htop, hinner => by
    have hrest : top ∉ rest := fun hmem => htop (List.mem_cons_of_mem _ hmem)
    unfold stays at h
    rw [List.foldl_cons]
    unfold Location.step
    by_cases hvoid : segment.isEmpty || segment = "."
    · rw [if_pos hvoid] at h ⊢
      exact notMem_of_not_stays h hrest hinner
    · rw [if_neg hvoid] at h ⊢
      by_cases hup : segment = ".."
      · rw [if_pos hup] at h ⊢
        cases inner with
        | nil => exact fun hmem => (mem_foldl_step hmem).elim (by simp) hrest
        | cons name inner =>
          rw [List.dropLast_cons_of_ne_nil (by simp)]
          exact notMem_of_not_stays (by simpa using h) hrest fun hmem =>
            hinner (List.dropLast_subset _ hmem)
      · rw [if_neg hup] at h ⊢
        have hlonger : ¬ stays (inner ++ [segment]).length rest := by simpa using h
        exact notMem_of_not_stays hlonger hrest fun hmem =>
          (List.mem_append.1 hmem).elim hinner fun he =>
            htop (List.mem_singleton.1 he ▸ List.mem_cons_self)

theorem prefix_locate {path : Path} {inner : Location} (habsolute : path.isAbsolute = false)
    (h : stays inner.length path.segments) (location : Location) :
    location <+: locate (location ++ inner) path := by
  obtain ⟨inner', hinner⟩ := exists_of_stays location h
  rw [locate, if_neg (by simp [habsolute]), hinner]
  exact List.prefix_append location inner'

theorem prefix_locate_of_isConfined {path : Path} (h : IsConfined path) (location : Location)
    (name : String) : location <+: locate (location ++ [name]) path :=
  @prefix_locate path [name] h.1 h.2 location

theorem length_le_of_mem_splitOn {c : Char} :
    ∀ {text part : List Char}, part ∈ text.splitOn c → part.length ≤ text.length
  | [], part, h => by
    rw [List.splitOn_nil, List.mem_singleton] at h
    simp [h]
  | d :: text, part, h => by
    rw [List.splitOn_cons_eq_if_modifyHead] at h
    split at h
    · rcases List.mem_cons.1 h with rfl | h
      · simp
      · have := length_le_of_mem_splitOn h
        simp only [List.length_cons]
        omega
    · obtain ⟨first, rest, hsplit⟩ := List.exists_cons_of_ne_nil (List.splitOn_ne_nil c text)
      rw [hsplit, List.modifyHead_cons] at h
      have hall : ∀ part ∈ text.splitOn c, part.length ≤ text.length := fun _ =>
        length_le_of_mem_splitOn
      rw [hsplit] at hall
      rcases List.mem_cons.1 h with rfl | h
      · simpa using hall first List.mem_cons_self
      · have := hall part (List.mem_cons_of_mem _ h)
        simp only [List.length_cons]
        omega

/-- Below any directory a confined path stays below it, and no other path does. -/
theorem isConfined_iff {path : Path} :
    IsConfined path ↔ ∀ dir : Path, IsBelow dir ((dir.join "src").join path) := by
  have hsrc : ∀ l, locate l "src" = l ++ ["src"] := fun l => rfl
  have hjoin : ∀ (dir : Path) home, locate home ((dir.join "src").join path) =
      locate (locate home dir ++ ["src"]) path := fun dir home => by
    rw [locate_join, locate_join, hsrc]
  constructor
  · intro h dir home
    rw [hjoin]
    exact prefix_locate_of_isConfined h _ _
  · intro h
    -- The name of a working directory that the path does not speak of, since it is longer.
    let top := String.ofList (List.replicate (path.toList.length + 4) 'o')
    have hlength : top.toList.length = path.toList.length + 4 := by simp [top]
    have htop : top ∉ path.segments := by
      intro hmem
      obtain ⟨part, hpart, he⟩ := List.mem_map.1 hmem
      have hle := length_le_of_mem_splitOn hpart
      rw [← he, String.toList_ofList] at hlength
      omega
    have hne : top ∉ ["src"] := by
      rw [List.mem_singleton]
      intro he
      have hthree : "src".toList.length = 3 := rfl
      rw [he] at hlength
      omega
    have hbelow := h "." [top]
    rw [hjoin] at hbelow
    have hmem : top ∈ locate [top, "src"] path := hbelow.subset List.mem_cons_self
    refine Decidable.byContradiction fun hconfined => ?_
    unfold locate at hmem
    split at hmem
    · exact (mem_foldl_step hmem).elim (by simp) htop
    · rename_i habsolute
      have hstays : ¬ stays (["src"] : Location).length path.segments := fun hstays =>
        hconfined ⟨by simpa using habsolute, hstays⟩
      exact notMem_of_not_stays hstays htop hne hmem

/-! ## Names at the end -/

/-- What follows a path without a slash belongs to its last segment. -/
theorem exists_segments_append (path : Path) :
    ∃ front last, ∀ name : String, '/' ∉ name.toList →
      segments (path ++ name) = front ++ [last ++ name] := by
  have hlist : ∀ text : List Char, ∃ front last, ∀ name : List Char, '/' ∉ name →
      (text ++ name).splitOn '/' = front ++ [last ++ name] := by
    intro text
    induction text with
    | nil => exact ⟨[], [], fun name h => List.splitOn_eq_singleton h⟩
    | cons c text ih =>
      obtain ⟨front, last, ih⟩ := ih
      by_cases hc : c = '/'
      · refine ⟨[] :: front, last, fun name h => ?_⟩
        rw [List.cons_append, List.splitOn_cons_eq_if_modifyHead, ih name h, if_pos (by simp [hc])]
        rfl
      · cases front with
        | nil =>
          refine ⟨[], c :: last, fun name h => ?_⟩
          rw [List.cons_append, List.splitOn_cons_eq_if_modifyHead, ih name h,
            if_neg (by simp [hc])]
          rfl
        | cons first front =>
          refine ⟨(c :: first) :: front, last, fun name h => ?_⟩
          rw [List.cons_append, List.splitOn_cons_eq_if_modifyHead, ih name h,
            if_neg (by simp [hc])]
          rfl
  obtain ⟨front, last, h⟩ := hlist path.toList
  refine ⟨front.map String.ofList, String.ofList last, fun name hname => ?_⟩
  rw [segments, String.toList_append, h name.toList hname, List.map_append]
  simp

theorem stays_concat {name : String} (hvoid : ¬ (name.isEmpty || name = ".")) (hup : name ≠ "..") :
    ∀ (segments : List String) (depth : Nat),
      stays depth (segments ++ [name]) = stays depth segments
  | [], depth => by
    change (if _ then _ else _) = true
    rw [if_neg hvoid, if_neg hup]
    rfl
  | segment :: rest, depth => by
    have ih := stays_concat hvoid hup rest
    rw [List.cons_append]
    unfold stays
    simp only [ih]

/-- A segment that ends with more than dots leads on to a name. -/
theorem isName_append (front : String) {name : String} (hc : ∃ c ∈ name.toList, c ≠ '.') :
    ¬ ((front ++ name).isEmpty || front ++ name = ".") ∧ front ++ name ≠ ".." := by
  obtain ⟨c, hmem, hdot⟩ := hc
  have hmem : c ∈ (front ++ name).toList := by simp [hmem]
  have hne : ∀ s : String, c ∉ s.toList → front ++ name ≠ s := fun s hs he => hs (he ▸ hmem)
  refine ⟨?_, hne ".." (by simpa using hdot)⟩
  simp [hne "" (by simp), hne "." (by simpa using hdot)]

/-- Whether a path climbs out does not depend on the name of the file. -/
theorem isConfined_append_iff (path : Path) {name name' : String} (hname : '/' ∉ name.toList)
    (hname' : '/' ∉ name'.toList) (hc : ∃ c ∈ name.toList, c ≠ '.')
    (hc' : ∃ c ∈ name'.toList, c ≠ '.') :
    IsConfined (path ++ name) ↔ IsConfined (path ++ name') := by
  obtain ⟨front, last, hsegments⟩ := exists_segments_append path
  have hplain : ∀ {name : String}, '/' ∉ name.toList → (∃ c ∈ name.toList, c ≠ '.') →
      (IsConfined (path ++ name) ↔ path.isAbsolute = false ∧ stays 1 front) := by
    intro name hname hc
    obtain ⟨hvoid, hup⟩ := isName_append last hc
    have habsolute : isAbsolute (path ++ name) = isAbsolute path := by
      have hhead : name.toList.head? ≠ some '/' := fun h => hname (List.mem_of_mem_head? h)
      cases hpath : path.toList <;> simp [isAbsolute, hpath, hhead]
    rw [IsConfined, habsolute, hsegments name hname, stays_concat hvoid hup]
  rw [hplain hname hc, hplain hname' hc']

theorem exists_join_append (base path : Path) (name : String) :
    ∃ front, base.join (path ++ name) = front ++ name := by
  unfold join
  split
  · exact ⟨path, rfl⟩
  · split
    · exact ⟨base ++ path, (String.append_assoc ..).symm⟩
    · exact ⟨base ++ "/" ++ path, (String.append_assoc ..).symm⟩

end Path

/-- A path that ends with a name names a location that does. -/
theorem FileTree.exists_of_resolveEntry {tree : FileTree} {path : Path} {name : String}
    (hname : '/' ∉ name.toList) (hc : ∃ c ∈ name.toList, c ≠ '.') {entry : Location}
    (h : tree.resolveEntry (path ++ name) = .ok entry) :
    ∃ directory last, entry = directory ++ [last ++ name] := by
  obtain ⟨front, last, hsegments⟩ := exists_segments_append path
  obtain ⟨-, directory, -, hentry⟩ := (resolveEntry_eq_ok (hsegments name hname)).1 h
  obtain ⟨hvoid, hup⟩ := isName_append last hc
  refine ⟨directory, last, ?_⟩
  rw [(advance_eq_ok.1 hentry).2.2, Location.step, if_neg hvoid, if_neg hup]

end SkillCompiler
