import SkillCompiler.Proofs.File.Location

/-!
# Paths that end with a name

A path whose last segment is a name has it as its file name (`fileName?_of_endsWith`), and the text
before that segment is its parent, as it is written (`parent?_slash`). Names below a path are more
segments (`segments_foldl_join`).
-/

namespace SkillCompiler

namespace Path

/-- A segment that leads on to a location of its own. -/
structure IsName (name : String) : Prop where
  noSlash : '/' ∉ name.toList
  notEmpty : name ≠ ""
  notDot : name ≠ "."
  notUp : name ≠ ".."

instance (name : String) : Decidable (IsName name) :=
  decidable_of_iff ('/' ∉ name.toList ∧ name ≠ "" ∧ name ≠ "." ∧ name ≠ "..")
    ⟨fun ⟨slash, empty, dot, up⟩ => ⟨slash, empty, dot, up⟩,
      fun h => ⟨h.noSlash, h.notEmpty, h.notDot, h.notUp⟩⟩

/-- A path whose last segment is `name`. -/
def EndsWith (path : Path) (name : String) : Prop :=
  ∃ front, path.toList.splitOn '/' = front ++ [name.toList]

variable {path dir : Path} {name last : String}

theorem IsName.isAbsolute_eq_false (h : IsName name) : isAbsolute name = false := by
  rw [isAbsolute, decide_eq_false_iff_not]
  exact fun hhead => h.noSlash (List.mem_of_mem_head? hhead)

theorem IsName.isVoid_eq_false (h : IsName name) : isVoid name.toList = false := by
  have hdot : name.toList ≠ ['.'] := fun he => h.notDot (String.toList_inj.1 he)
  simp [isVoid, h.notEmpty, hdot]

theorem endsWith_self (h : '/' ∉ name.toList) : EndsWith name name :=
  ⟨[], List.splitOn_eq_singleton h⟩

theorem endsWith_slash (dir : Path) (h : '/' ∉ name.toList) :
    EndsWith (dir ++ "/" ++ name) name := by
  refine ⟨dir.toList.splitOn '/', ?_⟩
  have hlist : (dir ++ "/" ++ name).toList = dir.toList ++ '/' :: name.toList := by simp
  rw [hlist, List.splitOn_append_cons_self, List.splitOn_eq_singleton h]

theorem endsWith_join (dir : Path) (h : IsName name) : EndsWith (dir.join name) name := by
  rw [join, if_neg (by simp [h.isAbsolute_eq_false])]
  split
  · by_cases hempty : dir = ""
    · rw [hempty, String.empty_append]
      exact endsWith_self h.noSlash
    · rename_i hslash
      obtain ⟨front, hdir⟩ := exists_eq_append_slash (by simpa [hempty] using hslash)
      rw [hdir]
      exact endsWith_slash front h.noSlash
  · exact endsWith_slash dir h.noSlash

/-! ## The segments that matter -/

theorem dropVoid_concat {segment : List Char} (h : isVoid segment = false)
    (front : List (List Char)) : dropVoid (front ++ [segment]) = front ++ [segment] := by
  simp [dropVoid, List.dropWhile_cons_of_neg, h]

/-- Up to a name at the end every segment of a path from the working directory matters. -/
theorem split_of_relative {front : List (List Char)} (hname : IsName name)
    (habsolute : isAbsolute path = false)
    (h : path.toList.splitOn '/' = front ++ [name.toList]) :
    split path = ([], front ++ [name.toList]) := by
  unfold split
  split
  · rename_i hnil
    rw [hnil, List.splitOn_nil] at h
    have hmem : name.toList ∈ [[]] := h ▸ List.mem_concat_self
    exact absurd (String.toList_eq_nil_iff.1 (List.mem_singleton.1 hmem)) hname.notEmpty
  · rename_i body hbody
    simp [isAbsolute, hbody] at habsolute
  · rw [h]
    cases front with
    | nil => rfl
    | cons first front =>
      rw [List.cons_append]
      dsimp only
      rw [dropVoid_concat hname.isVoid_eq_false]

theorem split_of_absolute {front : List (List Char)} (hname : IsName name)
    (habsolute : isAbsolute path) (h : path.toList.splitOn '/' = front ++ [name.toList]) :
    ∃ rest, front = [] :: rest ∧ split path = (['/'], rest ++ [name.toList]) := by
  rw [isAbsolute, decide_eq_true_eq] at habsolute
  obtain ⟨body, hbody⟩ := List.head?_eq_some_iff.1 habsolute
  have hsegments : path.toList.splitOn '/' = [] :: body.splitOn '/' := by
    rw [hbody, ← List.nil_append ('/' :: body), List.splitOn_append_cons_self, List.splitOn_nil]
    rfl
  rw [hsegments] at h
  cases front with
  | nil =>
    rw [List.nil_append, List.cons.injEq] at h
    exact absurd h.2 (List.splitOn_ne_nil _ _)
  | cons first rest =>
    rw [List.cons_append, List.cons.injEq] at h
    refine ⟨rest, by rw [← h.1], ?_⟩
    simp only [split, hbody]
    rw [h.2, dropVoid_concat hname.isVoid_eq_false]

theorem fileName?_of_endsWith (hname : IsName name) (h : EndsWith path name) :
    fileName? path = some name := by
  have hdot : name.toList ≠ ['.'] := fun he => hname.notDot (String.toList_inj.1 he)
  have hup : name.toList ≠ ['.', '.'] := fun he => hname.notUp (String.toList_inj.1 he)
  have hlast : (split path).2.getLast? = some name.toList := by
    obtain ⟨front, hsplit⟩ := h
    by_cases habsolute : isAbsolute path
    · obtain ⟨rest, -, he⟩ := split_of_absolute hname habsolute hsplit
      rw [he, List.getLast?_concat]
    · rw [split_of_relative hname (by simpa using habsolute) hsplit, List.getLast?_concat]
  simp [fileName?, hlast, hdot, hup]

/-- The parent of a path from the root. -/
theorem parent?_of_root {front : List (List Char)} {segment : List Char}
    (h : split path = (['/'], front ++ [segment])) :
    parent? path = some (String.ofList ('/' :: joinSegments (dropVoid front))) := by
  cases front with
  | nil => simp [parent?, h]
  | cons first front =>
    simp only [parent?, h, List.cons_append]
    rw [← List.cons_append, List.dropLast_concat]

/-- The parent of a path from the working directory. Its first segment stays, whatever it is. -/
theorem parent?_of_home {first segment : List Char} {front : List (List Char)}
    (h : split path = ([], first :: front ++ [segment])) :
    parent? path = some (String.ofList (joinSegments (first :: dropVoid front))) := by
  cases front with
  | nil => simp [parent?, h]
  | cons second front =>
    simp only [parent?, h, List.cons_append]
    rw [← List.cons_append, List.dropLast_concat]

/-- The parent of a path is what is written before its last segment. -/
theorem parent?_slash (hlast : IsName last) (hdir : EndsWith dir last) (hname : IsName name) :
    parent? (dir ++ "/" ++ name) = some dir := by
  obtain ⟨front, hfront⟩ := hdir
  have hsplit : (dir ++ "/" ++ name).toList.splitOn '/' =
      front ++ [last.toList] ++ [name.toList] := by
    have hlist : (dir ++ "/" ++ name).toList = dir.toList ++ '/' :: name.toList := by simp
    rw [hlist, List.splitOn_append_cons_self, hfront, List.splitOn_eq_singleton hname.noSlash]
  have hjoin : String.ofList (joinSegments (front ++ [last.toList])) = dir := by
    rw [joinSegments, ← hfront, List.intercalate_splitOn, String.ofList_toList]
  -- The slash of the root is no segment, but it leaves an empty one at the front of the text.
  by_cases habsolute : isAbsolute (dir ++ "/" ++ name)
  · obtain ⟨rest, hrest, he⟩ := split_of_absolute hname habsolute hsplit
    cases front with
    | nil =>
      rw [List.nil_append, List.cons.injEq] at hrest
      exact absurd (String.toList_eq_nil_iff.1 hrest.1) hlast.notEmpty
    | cons first front =>
      rw [List.cons_append, List.cons.injEq] at hrest
      rw [parent?_of_root he, ← hrest.2, dropVoid_concat hlast.isVoid_eq_false, ← hjoin, hrest.1,
        List.cons_append, joinSegments, joinSegments, List.intercalate_cons_of_ne_nil (by simp)]
      rfl
  · have he := split_of_relative hname (by simpa using habsolute) hsplit
    cases front with
    | nil =>
      rw [parent?_of_home he, ← hjoin]
      rfl
    | cons first front =>
      rw [List.cons_append] at he
      rw [parent?_of_home he, dropVoid_concat hlast.isVoid_eq_false, ← List.cons_append, hjoin]

/-! ## Stem and extension -/

/-- A name is cut at its last dot, unless that comes first. -/
theorem splitName_append {stem extension : String} (hstem : stem ≠ "")
    (hdot : '.' ∉ extension.toList) :
    splitName (stem ++ "." ++ extension) = (stem, some extension) := by
  have hname : (stem ++ "." ++ extension).toList.reverse =
      extension.toList.reverse ++ '.' :: stem.toList.reverse := by simp
  have hbefore : ∀ c ∈ extension.toList.reverse, decide (c ≠ '.') := by
    intro c hc
    simpa using fun he : c = '.' => hdot (he ▸ List.mem_reverse.1 hc)
  have hdrop : (extension.toList.reverse ++ '.' :: stem.toList.reverse).dropWhile (· ≠ '.') =
      '.' :: stem.toList.reverse := by
    rw [List.dropWhile_append_of_pos hbefore]
    simp
  have htake : (extension.toList.reverse ++ '.' :: stem.toList.reverse).takeWhile (· ≠ '.') =
      extension.toList.reverse := by
    rw [List.takeWhile_append_of_pos hbefore]
    simp
  have hne : stem.toList.reverse ≠ [] := by simpa using hstem
  obtain ⟨c, rest, hrest⟩ := List.exists_cons_of_ne_nil hne
  rw [hrest] at hdrop htake hname
  simp only [splitName, hname, hdrop, htake]
  rw [← hrest, List.reverse_reverse, List.reverse_reverse, String.ofList_toList,
    String.ofList_toList]

/-! ## Names below a path -/

theorem IsName.segments_eq (h : IsName name) : segments name = [name] := by
  rw [segments, List.splitOn_eq_singleton h.noSlash, List.map_singleton, String.ofList_toList]

theorem IsName.step_eq (h : IsName name) (location : Location) :
    location.step name = location ++ [name] := by
  rw [Location.step, if_neg (by simp [h.notEmpty, h.notDot]), if_neg h.notUp]

/-- A name below a path is one more segment; it takes the place of the empty one after a slash. -/
theorem exists_segments_join (hdir : dir ≠ "") (h : IsName name) :
    isAbsolute (dir.join name) = isAbsolute dir ∧
      ∃ front, segments (dir.join name) = front ++ [name] ∧
        (segments dir = front ∨ segments dir = front ++ [""]) := by
  have hlist : dir.toList ≠ [] := by simpa using hdir
  have habsolute : ∀ rest, isAbsolute (dir ++ rest) = isAbsolute dir := by
    intro rest
    simp [isAbsolute, List.head?_append, List.head?_eq_some_head hlist]
  rw [join, if_neg (by simp [h.isAbsolute_eq_false])]
  split
  · rename_i hslash
    obtain ⟨front, hfront⟩ := exists_eq_append_slash (by simpa [hdir] using hslash)
    refine ⟨habsolute name, segments front, ?_, .inr ?_⟩
    · rw [hfront, segments_slash, h.segments_eq]
    · rw [hfront, segments_append_slash]
  · refine ⟨?_, segments dir, ?_, .inl rfl⟩
    · rw [String.append_assoc, habsolute]
    · rw [segments_slash, h.segments_eq]

/-- So are more names below it. -/
theorem segments_foldl_join :
    ∀ {names : List String} {path : Path} {front : List String} {last : String},
      (∀ name ∈ names, IsName name) → IsName last → segments path = front ++ [last] →
        isAbsolute (names.foldl join path) = isAbsolute path ∧
          segments (names.foldl join path) = segments path ++ names
  | [], path, front, last, _, _, _ => ⟨rfl, (List.append_nil _).symm⟩
  | name :: names, path, front, last, hnames, hlast, hpath => by
    rw [List.forall_mem_cons] at hnames
    have hne : path ≠ "" := by
      rintro rfl
      have hsingle : front ++ [last] = [""] := hpath.symm
      have hempty : last = "" := by simpa using congrArg List.getLast? hsingle
      exact hlast.notEmpty hempty
    obtain ⟨habsolute, front', hjoin, hfront⟩ := exists_segments_join hne hnames.1
    have hsame : segments path = front' := by
      rcases hfront with hfront | hfront
      · exact hfront
      · rw [hpath] at hfront
        exact absurd (by simpa using congrArg List.getLast? hfront) hlast.notEmpty
    obtain ⟨habsolute', hrest⟩ := segments_foldl_join hnames.2 hnames.1 hjoin
    rw [List.foldl_cons, habsolute', habsolute, hrest, hjoin, hsame]
    simp

end Path

end SkillCompiler
