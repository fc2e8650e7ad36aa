import SkillCompiler.File.Tree
import SkillCompiler.Proofs.Log

/-!
# Ways through a tree

A path is followed segment by segment, and a link puts other segments in place of those that led to
it. `Way` says what each segment can do, so what holds of every path is shown by induction on it.
Putting something at a location changes nothing elsewhere (`lookup?_put`), and a path leads to the
same place as long as directories and links stay (`resolve_of_directories`). A path that leads
somewhere and names no link leads to the location it names (`resolveEntry_of_resolve`).
-/

namespace SkillCompiler

namespace FileTree

variable {tree tree' : FileTree} {links : Nat} {location found : Location}
  {segments : List String} {path : Path}

theorem find?_put (location : Location) (node : FileNode) (l : Location) :
    ∀ entries : List (Location × FileNode),
      (put location node entries).find? (fun entry => entry.1 = l) =
        if l = location then some (location, node) else entries.find? fun entry => entry.1 = l
  | [] => by
    by_cases h : l = location
    · simp [put, h]
    · simp [put, h, Ne.symm h]
  | entry :: rest => by
    have ih := find?_put location node l rest
    rw [put]
    split
    · rename_i he
      by_cases h : l = location
      · simp [h]
      · simp [h, Ne.symm h, he]
    · rename_i he
      by_cases h : l = location
      · rw [if_pos h] at ih ⊢
        rw [List.find?_cons_of_neg (by simpa [h] using he), ih]
      · rw [if_neg h] at ih ⊢
        rw [List.find?_cons, List.find?_cons, ih]

theorem lookup?_put (tree : FileTree) {location : Location} (hl : location ≠ []) (node : FileNode)
    (l : Location) :
    lookup? { tree with nodes := put location node tree.nodes } l =
      if l = location then some node else tree.lookup? l := by
  unfold lookup?
  by_cases hnil : l = []
  · rw [if_pos hnil, if_pos hnil, if_neg fun h : l = location => hl (h ▸ hnil)]
  · rw [if_neg hnil, if_neg hnil, find?_put]
    split <;> rfl

theorem advance_eq_ok {next : Location} {segment : String} :
    tree.advance location segment = .ok next ↔
      tree.lookup? location = some .directory ∧ segment.utf8ByteSize ≤ nameLimit ∧
        next = location.step segment := by
  unfold advance
  split
  · rename_i h
    by_cases hsize : segment.utf8ByteSize > nameLimit
    · rw [if_pos hsize]
      simp [h, Nat.not_le.2 hsize]
    · rw [if_neg hsize]
      simp [h, Nat.not_lt.1 hsize, eq_comm]
  · rename_i hne h
    simp only [h, reduceCtorEq, Option.some.injEq, false_iff, not_and]
    exact fun hdirectory => absurd hdirectory hne
  · rename_i h
    simp [h]

/-! ## Ways -/

/-- Segments lead from one location to another, through at most so many symbolic links. -/
inductive Way (tree : FileTree) : (links : Nat) → Location → List String → Location → Prop
  | done {links : Nat} {location : Location} : Way tree links location [] location
  | on {links : Nat} {location next found : Location} {segment : String} {rest : List String}
      (hnext : tree.advance location segment = .ok next) (hlink : tree.linkAt? next = none)
      (way : Way tree links next rest found) : Way tree links location (segment :: rest) found
  | symbolic {links : Nat} {location next found : Location} {segment : String}
      {rest : List String} {target : Path}
      (hnext : tree.advance location segment = .ok next)
      (hlink : tree.linkAt? next = some (.symbolicLink target))
      (way : Way tree links (if target.isAbsolute then [] else next.dropLast)
        (target.segments ++ rest) found) :
      Way tree (links + 1) location (segment :: rest) found
  | hard {links : Nat} {location next file : Location} {segment : String}
      (hnext : tree.advance location segment = .ok next)
      (hlink : tree.linkAt? next = some (.hardLink file)) : Way tree links location [segment] file

theorem linkAt?_cases (tree : FileTree) (location : Location) :
    tree.linkAt? location = none ∨
      (∃ target, tree.linkAt? location = some (.symbolicLink target)) ∨
      ∃ file, tree.linkAt? location = some (.hardLink file) := by
  cases h : tree.linkAt? location with
  | none => exact .inl rfl
  | some node =>
    have hnode := (Option.filter_eq_some_iff.1 h).2
    cases node with
    | directory => cases hnode
    | file bytes => cases hnode
    | symbolicLink target => exact .inr (.inl ⟨target, rfl⟩)
    | hardLink file => exact .inr (.inr ⟨file, rfl⟩)

theorem follow_nil : tree.follow links location [] = .ok location := by
  cases links <;> rfl

/-- What one segment does. -/
theorem follow_cons {next : Location} {segment : String} {rest : List String}
    (hnext : tree.advance location segment = .ok next) :
    tree.follow links location (segment :: rest) =
      match tree.linkAt? next with
      | some (.symbolicLink target) =>
        match links with
        | 0 => .error .tooManyLinks
        | links + 1 => tree.follow links (if target.isAbsolute then [] else next.dropLast)
            (target.segments ++ rest)
      | some (.hardLink file) => if rest.isEmpty then .ok file else .error .notADirectory
      | _ => tree.follow links next rest := by
  cases links <;> exact bind_eq_of_ok hnext

theorem exists_advance {segment : String} {rest : List String}
    (h : tree.follow links location (segment :: rest) = .ok found) :
    ∃ next, tree.advance location segment = .ok next := by
  cases links <;> exact (exists_of_bind_eq_ok h).imp fun next h => h.1

theorem way_of_follow : ∀ {links : Nat} {location : Location} {segments : List String},
    tree.follow links location segments = .ok found → tree.Way links location segments found
  | links, location, [], h => by
    cases follow_nil.symm.trans h
    exact .done
  | links, location, segment :: rest, h => by
    obtain ⟨next, hnext⟩ := exists_advance h
    rw [follow_cons hnext] at h
    rcases tree.linkAt?_cases next with hlink | ⟨target, hlink⟩ | ⟨file, hlink⟩ <;> rw [hlink] at h
    · exact .on hnext hlink (way_of_follow h)
    · cases links with
      | zero => cases h
      | succ links => exact .symbolic hnext hlink (way_of_follow h)
    · dsimp only at h
      split at h
      · rename_i hrest
        cases h
        rw [List.isEmpty_iff.1 hrest]
        exact .hard hnext hlink
      · cases h
termination_by links _ segments => (links, segments.length)

theorem Way.follow (way : tree.Way links location segments found) :
    tree.follow links location segments = .ok found := by
  induction way with
  | done => exact follow_nil
  | on hnext hlink _ ih => rw [follow_cons hnext, hlink, ih]
  | symbolic hnext hlink _ ih => 
    rw [follow_cons hnext, hlink]
    exact ih
  | hard hnext hlink => 
    rw [follow_cons hnext, hlink]
    rfl

/-- A way through some segments and then others stops between them. -/
theorem Way.exists_between {front back : List String}
    (way : tree.Way links location (front ++ back) found) :
    ∃ between left, tree.Way links location front between ∧ tree.Way left between back found := by
  generalize hsegments : front ++ back = segments at way
  induction way generalizing front with
  | done =>
    obtain ⟨rfl, rfl⟩ := List.append_eq_nil_iff.1 hsegments
    exact ⟨_, 0, .done, .done⟩
  | on hnext hlink way ih =>
    cases front with
    | nil => 
      obtain rfl := hsegments
      exact ⟨_, _, .done, .on hnext hlink way⟩
    | cons first front =>
      obtain ⟨rfl, hrest⟩ := List.cons.inj hsegments
      obtain ⟨between, left, hfront, hback⟩ := ih hrest
      exact ⟨between, left, .on hnext hlink hfront, hback⟩
  | symbolic hnext hlink way ih =>
    cases front with
    | nil => 
      obtain rfl := hsegments
      exact ⟨_, _, .done, .symbolic hnext hlink way⟩
    | cons first front =>
      obtain ⟨rfl, rfl⟩ := List.cons.inj hsegments
      obtain ⟨between, left, hfront, hback⟩ := ih (List.append_assoc ..)
      exact ⟨between, left, .symbolic hnext hlink hfront, hback⟩
  | hard hnext hlink =>
    cases front with
    | nil => 
      obtain rfl := hsegments
      exact ⟨_, 0, .done, .hard hnext hlink⟩
    | cons first front =>
      obtain ⟨rfl, hrest⟩ := List.cons.inj hsegments
      obtain ⟨rfl, rfl⟩ := List.append_eq_nil_iff.1 hrest
      exact ⟨_, 0, .hard hnext hlink, .done⟩

/-- A way of one segment ends where it leads, unless there is a link. -/
theorem Way.exists_advance {segment : String} (way : tree.Way links location [segment] found) :
    ∃ next, tree.advance location segment = .ok next ∧
      (tree.linkAt? next = none → found = next) := by
  cases way with
  | on hnext hlink way =>
    cases way
    exact ⟨_, hnext, fun _ => rfl⟩
  | symbolic hnext hlink way => exact ⟨_, hnext, fun hnone => nomatch hlink.symm.trans hnone⟩
  | hard hnext hlink => exact ⟨_, hnext, fun hnone => nomatch hlink.symm.trans hnone⟩

/-! ## Paths -/

theorem resolve_eq_ok :
    tree.resolve path = .ok found ↔
      checkPath path = .ok () ∧ tree.Way linkLimit (tree.startOf path) path.segments found := by
  constructor
  · intro h
    obtain ⟨_, hcheck, h⟩ := exists_of_bind_eq_ok h
    exact ⟨hcheck, way_of_follow h⟩
  · rintro ⟨hcheck, way⟩
    exact (bind_eq_of_ok hcheck).trans way.follow

theorem exists_segments_concat (path : Path) : ∃ front last, path.segments = front ++ [last] := by
  have hne : path.segments ≠ [] := by
    rw [Path.segments, Ne, List.map_eq_nil_iff]
    exact List.splitOn_ne_nil _ _
  exact ⟨_, _, (List.dropLast_concat_getLast hne).symm⟩

/-- The location that a path names is one segment away from a directory. -/
theorem resolveEntry_eq_ok {front : List String} {last : String}
    (hsegments : path.segments = front ++ [last]) {entry : Location} :
    tree.resolveEntry path = .ok entry ↔ checkPath path = .ok () ∧
      ∃ directory, tree.Way linkLimit (tree.startOf path) front directory ∧
        tree.advance directory last = .ok entry := by
  unfold resolveEntry
  rw [hsegments, List.dropLast_concat, List.getLast?_concat, Option.getD_some]
  constructor
  · intro h
    obtain ⟨_, hcheck, h⟩ := exists_of_bind_eq_ok h
    obtain ⟨directory, hdirectory, h⟩ := exists_of_bind_eq_ok h
    exact ⟨hcheck, directory, way_of_follow hdirectory, h⟩
  · rintro ⟨hcheck, directory, way, h⟩
    exact (bind_eq_of_ok hcheck).trans ((bind_eq_of_ok way.follow).trans h)

/-- A path that names no link leads to the location it names. -/
theorem resolveEntry_of_resolve (h : tree.resolve path = .ok found)
    (hlink : tree.isLink path = false) : tree.resolveEntry path = .ok found := by
  obtain ⟨front, last, hsegments⟩ := exists_segments_concat path
  obtain ⟨hcheck, way⟩ := resolve_eq_ok.1 h
  rw [hsegments] at way
  obtain ⟨directory, left, hdirectory, hlast⟩ := way.exists_between
  obtain ⟨entry, hentry, hfound⟩ := hlast.exists_advance
  have hresolve := (resolveEntry_eq_ok hsegments).2 ⟨hcheck, directory, hdirectory, hentry⟩
  rw [isLink, hresolve] at hlink
  rw [hresolve, hfound (Option.not_isSome_iff_eq_none.1 (by simpa using hlink))]

section

variable (hdir : ∀ l, tree.lookup? l = some .directory → tree'.lookup? l = some .directory)
  (hlink : ∀ l, tree'.linkAt? l = tree.linkAt? l)

include hdir hlink

theorem Way.of_directories (way : tree.Way links location segments found) :
    tree'.Way links location segments found := by
  have hadvance : ∀ {l segment next}, tree.advance l segment = .ok next →
      tree'.advance l segment = .ok next := by
    intro l segment next h
    obtain ⟨hl, hsize, hnext⟩ := advance_eq_ok.1 h
    exact advance_eq_ok.2 ⟨hdir _ hl, hsize, hnext⟩
  induction way with
  | done => exact .done
  | on hnext hnone _ ih => exact .on (hadvance hnext) ((hlink _).trans hnone) ih
  | symbolic hnext htarget _ ih => exact .symbolic (hadvance hnext) ((hlink _).trans htarget) ih
  | hard hnext hfile => exact .hard (hadvance hnext) ((hlink _).trans hfile)

theorem resolve_of_directories (hhome : tree'.home = tree.home)
    (h : tree.resolve path = .ok found) : tree'.resolve path = .ok found := by
  obtain ⟨hcheck, way⟩ := resolve_eq_ok.1 h
  have hstart : tree'.startOf path = tree.startOf path := by rw [startOf, startOf, hhome]
  exact resolve_eq_ok.2 ⟨hcheck, hstart ▸ way.of_directories hdir hlink⟩

end

end FileTree

end SkillCompiler
