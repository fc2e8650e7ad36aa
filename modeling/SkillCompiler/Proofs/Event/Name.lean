import SkillCompiler.Canonical.Rule

/-!
# Routes and event names

A route is an absolute path of at least two segments. A rule with a suffix turns the path of a route
into an event name, and the address in that name leads back to the path: always with slashes for
dots (`Route.hierarchicalPath_address`), and as it is named if the route has two segments
(`Route.path_address_iff`). The suffix is the last segment of the name, so segments that are
themselves words for suffixes do no harm.
-/

namespace SkillCompiler

/-! ## Texts divided by a character -/

namespace Text

variable {old new c : Char} {parts : List (List Char)}

/-- Changing the divider is replacing a character that occurs nowhere else. -/
theorem map_intercalate (h : ∀ part ∈ parts, old ∉ part) :
    ([old].intercalate parts).map (fun c => if c = old then new else c) =
      [new].intercalate parts := by
  have hpart : ∀ part ∈ parts, part.map (fun c => if c = old then new else c) = part := by
    intro part hp
    refine (List.map_congr_left fun c hc => if_neg fun he => ?_).trans (List.map_id' part)
    exact h part hp (he ▸ hc)
  induction parts with
  | nil => rfl
  | cons part parts ih =>
    have ih := ih (fun p hp => h p (List.mem_cons_of_mem _ hp))
      fun p hp => hpart p (List.mem_cons_of_mem _ hp)
    cases parts with
    | nil => simpa using hpart part (List.mem_cons_self ..)
    | cons next parts =>
      rw [List.intercalate_cons_cons, List.intercalate_cons_cons, List.map_append, List.map_append,
        ih, hpart part (List.mem_cons_self ..)]
      simp

theorem replaceChar_intercalate {segments : List String} {divider other : String}
    (hold : divider.toList = [old]) (hnew : other.toList = [new])
    (h : ∀ s ∈ segments, old ∉ s.toList) :
    replaceChar old new (divider.intercalate segments) = other.intercalate segments := by
  rw [replaceChar, ← String.toList_inj, String.toList_ofList, String.toList_intercalate,
    String.toList_intercalate, hold, hnew]
  refine map_intercalate fun part hp => ?_
  obtain ⟨s, hs, rfl⟩ := List.mem_map.1 hp
  exact h s hs

theorem notMem_intercalate (hc : c ≠ new) (h : ∀ part ∈ parts, c ∉ part) :
    c ∉ [new].intercalate parts := by
  induction parts with
  | nil => simp
  | cons part parts ih =>
    have ih := ih fun p hp => h p (List.mem_cons_of_mem _ hp)
    have hpart := h part (List.mem_cons_self ..)
    cases parts with
    | nil => simpa using hpart
    | cons next parts =>
      rw [List.intercalate_cons_cons]
      simp [hpart, hc, ih]

end Text

/-! ## The segments of a name -/

theorem Suffix.ofName?_name (s : Suffix) : Suffix.ofName? s.name = some s := by
  cases s <;> decide

theorem Suffix.dot_notMem_name (s : Suffix) : '.' ∉ s.name.toList := by
  cases s <;> decide

namespace Address

/-- A name is taken apart at its dots. -/
theorem map_splitOn_intercalate {segments : List String} (hne : segments ≠ [])
    (h : ∀ s ∈ segments, '.' ∉ s.toList) :
    ((".".intercalate segments).toList.splitOn '.').map String.ofList = segments := by
  have hdot : ".".toList = ['.'] := rfl
  rw [String.toList_intercalate, hdot, List.splitOn_intercalate, List.map_map]
  · exact (List.map_congr_left fun s _ => String.ofList_toList).trans (List.map_id' segments)
  · intro part hp
    obtain ⟨s, hs, rfl⟩ := List.mem_map.1 hp
    exact h s hs
  · simpa using hne

/-- What is read off the segments of a name: `rest` is what a suffix at the end leaves. -/
theorem parse?_eq_of_segments {name : String} {rest : List String} {suffix : Option Suffix}
    (hsegments : (name.toList.splitOn '.').map String.ofList =
      rest ++ (suffix.map Suffix.name).toList)
    (hplain : suffix = none → ∀ last ∈ rest.getLast?, Suffix.ofName? last = none) :
    parse? name =
      if rest.length < 2 || rest.any String.isEmpty then none
      else rest.getLast?.map fun function => ⟨".".intercalate rest.dropLast, function, suffix⟩ := by
  unfold parse?
  cases suffix with
  | none =>
    have hnone : rest.getLast?.bind Suffix.ofName? = none := by
      rw [Option.bind_eq_none_iff]
      exact hplain rfl
    rw [Option.map_none, Option.toList_none, List.append_nil] at hsegments
    simp only [hsegments, hnone, Option.isSome_none, Bool.false_eq_true, if_false]
  | some s =>
    rw [Option.map_some, Option.toList_some] at hsegments
    simp only [hsegments, List.getLast?_concat, Option.bind_some, Suffix.ofName?_name,
      Option.isSome_some, if_true, List.dropLast_concat]

/-- A name has the address before its suffix; without a suffix, its last segment must not be taken
for one. -/
theorem parse?_intercalate {component : List String} {function : String} (suffix : Option Suffix)
    (hne : component ≠ []) (hempty : ∀ s ∈ component ++ [function], s ≠ "")
    (hdot : ∀ s ∈ component ++ [function], '.' ∉ s.toList)
    (hplain : suffix = none → Suffix.ofName? function = none) :
    parse? (".".intercalate (component ++ [function] ++ (suffix.map Suffix.name).toList)) =
      some ⟨".".intercalate component, function, suffix⟩ := by
  have hsegments : ((".".intercalate (component ++ [function] ++
      (suffix.map Suffix.name).toList)).toList.splitOn '.').map String.ofList =
      component ++ [function] ++ (suffix.map Suffix.name).toList := by
    refine map_splitOn_intercalate (by simp) fun s hs => ?_
    rcases List.mem_append.1 hs with hs | hs
    · exact hdot s hs
    · obtain ⟨t, -, rfl⟩ := Option.map_eq_some_iff.1 (Option.mem_toList.1 hs)
      exact t.dot_notMem_name
  have hlength : ¬ (component ++ [function]).length < 2 := by
    have := List.length_pos_iff.2 hne
    simp only [List.length_append, List.length_singleton]
    omega
  have hfull : (component ++ [function]).any String.isEmpty = false := by
    rw [List.any_eq_false]
    exact fun s hs he => hempty s hs (String.isEmpty_iff.1 he)
  rw [parse?_eq_of_segments hsegments fun h => by simpa using hplain h]
  simp only [hlength, hfull, decide_false, Bool.or_false, Bool.false_eq_true, if_false,
    List.getLast?_concat, List.dropLast_concat, Option.map_some]

end Address

/-! ## Routes -/

/-- A piece of a path or a name: not empty, and without the characters that divide them. -/
structure IsSegment (s : String) : Prop where
  ne_empty : s ≠ ""
  slash_notMem : '/' ∉ s.toList
  dot_notMem : '.' ∉ s.toList

/-- An absolute path to a function: the segments of a component and the function. -/
structure Route where
  component : List String
  function : String
  ne_nil : component ≠ []
  isSegment : ∀ s ∈ component ++ [function], IsSegment s

namespace Route

variable (r : Route)

def segments : List String := r.component ++ [r.function]

def path : String := "/" ++ "/".intercalate r.segments

/-- The address that the path stands for, with a suffix. -/
def address (suffix : Suffix) : Address :=
  ⟨".".intercalate r.component, r.function, some suffix⟩

theorem path_eq : r.path = "/" ++ "/".intercalate r.component ++ "/" ++ r.function := by
  rw [path, segments, String.intercalate_append_of_ne_nil r.ne_nil (by simp),
    String.intercalate_singleton]
  simp only [String.append_assoc]

theorem dotted_path : dotted r.path = ".".intercalate r.segments := by
  have hpath : r.path.toList = '/' :: ("/".intercalate r.segments).toList := by
    rw [path, String.toList_append]
    rfl
  rw [dotted, hpath]
  simp only [String.ofList_toList]
  exact Text.replaceChar_intercalate rfl rfl fun s hs => (r.isSegment s hs).slash_notMem

theorem parse?_dotted_path (suffix : Suffix) :
    Address.parse? (dotted r.path ++ "." ++ suffix.name) = some (r.address suffix) := by
  have hname : dotted r.path ++ "." ++ suffix.name =
      ".".intercalate (r.segments ++ [suffix.name]) := by
    rw [dotted_path, String.intercalate_append_of_ne_nil (by simp [segments]) (by simp),
      String.intercalate_singleton]
  rw [hname]
  exact Address.parse?_intercalate (some suffix) r.ne_nil
    (fun s hs => (r.isSegment s hs).ne_empty) (fun s hs => (r.isSegment s hs).dot_notMem) nofun

theorem hierarchical_address (suffix : Suffix) :
    (r.address suffix).hierarchical = ⟨"/".intercalate r.component, r.function, some suffix⟩ := by
  have hcomponent : Text.replaceChar '.' '/' (".".intercalate r.component) =
      "/".intercalate r.component :=
    Text.replaceChar_intercalate rfl rfl fun s hs =>
      (r.isSegment s (List.mem_append_left _ hs)).dot_notMem
  have hfunction : Text.replaceChar '.' '/' (".".intercalate [r.function]) =
      "/".intercalate [r.function] :=
    Text.replaceChar_intercalate rfl rfl fun s hs =>
      (r.isSegment s (List.mem_append_right _ hs)).dot_notMem
  rw [String.intercalate_singleton, String.intercalate_singleton] at hfunction
  rw [Address.hierarchical, address, hcomponent, hfunction]

/-- With slashes for dots the address has the path of the route. -/
theorem hierarchicalPath_address (suffix : Suffix) :
    (r.address suffix).hierarchicalPath = r.path := by
  rw [Address.hierarchicalPath, hierarchical_address, Address.path, path_eq]

/-- The divider of a component does not show only if it is one segment: a path with more has a slash
where a name has a dot. -/
theorem intercalate_component_iff :
    ".".intercalate r.component = "/".intercalate r.component ↔ r.segments.length = 2 := by
  have hlength : r.segments.length = 2 ↔ r.component.length = 1 := by
    simp [segments]
  rw [hlength]
  constructor
  · intro h
    match hc : r.component with
    | [] => exact absurd hc r.ne_nil
    | [_] => rfl
    | s :: t :: rest =>
      exfalso
      have hslash : '/' ∈ ("/".intercalate r.component).toList := by
        rw [hc, String.intercalate_cons_cons]
        simp
      rw [← h, String.toList_intercalate] at hslash
      refine Text.notMem_intercalate (by decide) (fun part hp => ?_) hslash
      obtain ⟨x, hx, rfl⟩ := List.mem_map.1 hp
      exact (r.isSegment x (List.mem_append_left _ hx)).slash_notMem
  · intro h
    obtain ⟨s, hs⟩ := List.length_eq_one_iff.1 h
    rw [hs, String.intercalate_singleton, String.intercalate_singleton]

/-- As it is named the address has the path of the route only if the route has two segments. -/
theorem path_address_iff (suffix : Suffix) :
    (r.address suffix).path = r.path ↔ r.segments.length = 2 := by
  rw [path_eq, Address.path, address, String.append_left_inj, String.append_left_inj,
    String.append_right_inj, intercalate_component_iff]

end Route

/-! ## Events of rules -/

namespace Rule

/-- What the name of an element stands for: the action behind it, if the rule knows local names. -/
def resolve (rule : Rule) (aliases : Assoc String) (name : String) : String :=
  if rule.aliased then (aliases.get? name).getD name else name

/-- A rule with a suffix knows no commands. -/
theorem command?_eq_none {rule : Rule} (h : rule ∈ all) {suffix : Suffix}
    (hs : rule.suffix = some suffix) (name : String) : rule.command? name = none := by
  have hcommands : ∀ rule ∈ all, rule.suffix.isSome → rule.commands = none := by decide
  rw [command?, hcommands rule h (by rw [hs]; rfl), Option.bind_none]

theorem event_eq {rule : Rule} (h : rule ∈ all) {suffix : Suffix}
    (hs : rule.suffix = some suffix) (aliases : Assoc String) (name : String) :
    rule.event aliases name = dotted (rule.resolve aliases name) ++ "." ++ suffix.name := by
  rw [event, command?_eq_none h hs, hs, resolve]

end Rule

end SkillCompiler
