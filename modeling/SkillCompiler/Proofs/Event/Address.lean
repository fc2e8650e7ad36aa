import SkillCompiler.Proofs.Event.Name
import SkillCompiler.Proofs.Text.Words

/-!
# The grammar of event names

An event name with an address is spelled by the segments of a component, a function and perhaps a
suffix (`Spelling`). Segments are not empty and have no dots, so the dots of the name show where one
ends; a last word that could be a suffix is one, so a spelling without a suffix has another word
there. Reading a name gives the address of its spelling, and names without a spelling have no
address (`Address.parse?_eq_some_iff`).
-/

namespace SkillCompiler

theorem Suffix.ofName?_eq_some_iff {name : String} {s : Suffix} :
    Suffix.ofName? name = some s ↔ s.name = name := by
  constructor
  · intro h
    simpa using List.find?_some h
  · rintro rfl
    exact Suffix.ofName?_name s

theorem Suffix.ofName?_eq_none_iff {name : String} :
    Suffix.ofName? name = none ↔ ∀ s : Suffix, s.name ≠ name := by
  simp only [Option.eq_none_iff_forall_ne_some, Ne, Suffix.ofName?_eq_some_iff]

/-- A suffix at the end of some segments is taken off. If none is, the last segment is no suffix. -/
theorem Suffix.exists_split (segments : List String) :
    ∃ (rest : List String) (suffix : Option Suffix),
      segments = rest ++ (suffix.map Suffix.name).toList ∧
      (suffix = none → ∀ last ∈ rest.getLast?, Suffix.ofName? last = none) := by
  cases h : segments.getLast?.bind Suffix.ofName? with
  | none => exact ⟨segments, none, by simp, fun _ => Option.bind_eq_none_iff.1 h⟩
  | some suffix =>
    obtain ⟨last, hlast, hsuffix⟩ := Option.bind_eq_some_iff.1 h
    obtain ⟨rest, rfl⟩ := List.getLast?_eq_some_iff.1 hlast
    refine ⟨rest, some suffix, ?_, nofun⟩
    rw [Option.map_some, Option.toList_some, Suffix.ofName?_eq_some_iff.1 hsuffix]

/-- What an event name with an address is made of. -/
@[ext]
structure Spelling where
  component : List String
  function : String
  suffix : Option Suffix
  ne_nil : component ≠ []
  ne_empty : ∀ s ∈ component ++ [function], s ≠ ""
  dot_notMem : ∀ s ∈ component ++ [function], '.' ∉ s.toList
  /-- A function at the end of a name is not taken for a suffix. -/
  plain : suffix = none → ∀ s : Suffix, s.name ≠ function

namespace Spelling

variable (s : Spelling)

def segments : List String := s.component ++ [s.function] ++ (s.suffix.map Suffix.name).toList

/-- The segments with dots between them. -/
def name : String := ".".intercalate s.segments

def address : Address := ⟨".".intercalate s.component, s.function, s.suffix⟩

theorem name_eq : s.name = s.address.component ++ "." ++ s.address.function ++
    (s.address.suffix.map fun t => "." ++ t.name).getD "" := by
  have hbefore : ".".intercalate (s.component ++ [s.function]) =
      ".".intercalate s.component ++ "." ++ s.function := by
    rw [String.intercalate_append_of_ne_nil s.ne_nil (by simp), String.intercalate_singleton]
  rw [name, segments, address]
  cases s.suffix with
  | none => simpa using hbefore
  | some t =>
    rw [Option.map_some, Option.toList_some,
      String.intercalate_append_of_ne_nil (by simp) (by simp), hbefore,
      String.intercalate_singleton, Option.map_some, Option.getD_some, String.append_assoc]

/-- The dots of a component show its segments. -/
theorem splitOn_component :
    (s.address.component.toList.splitOn '.').map String.ofList = s.component :=
  Address.map_splitOn_intercalate s.ne_nil fun t ht =>
    s.dot_notMem t (List.mem_append_left _ ht)

end Spelling

namespace Address

theorem parse?_name (s : Spelling) : parse? s.name = some s.address :=
  parse?_intercalate s.suffix s.ne_nil s.ne_empty s.dot_notMem fun h =>
    Suffix.ofName?_eq_none_iff.2 (s.plain h)

theorem exists_of_parse? {name : String} {a : Address} (h : parse? name = some a) :
    ∃ s : Spelling, s.name = name ∧ s.address = a := by
  obtain ⟨rest, suffix, hsegments, hplain⟩ :=
    Suffix.exists_split ((name.toList.splitOn '.').map String.ofList)
  have hdot : ∀ s ∈ rest, '.' ∉ s.toList := by
    intro s hs
    have hmem : s ∈ (name.toList.splitOn '.').map String.ofList := by
      rw [hsegments]
      exact List.mem_append_left _ hs
    obtain ⟨part, hpart, rfl⟩ := List.mem_map.1 hmem
    rw [String.toList_ofList]
    exact Text.notMem_of_mem_splitOn hpart
  have hname : ".".intercalate (rest ++ (suffix.map Suffix.name).toList) = name := by
    rw [← hsegments, ← String.toList_inj, String.toList_intercalate, List.map_map]
    simp [Function.comp_def, List.intercalate_splitOn]
  rw [parse?_eq_of_segments hsegments hplain] at h
  split at h
  · cases h
  · rename_i hfits
    obtain ⟨function, hlast, ha⟩ := Option.map_eq_some_iff.1 h
    obtain ⟨component, rfl⟩ := List.getLast?_eq_some_iff.1 hlast
    rw [List.dropLast_concat] at ha
    simp only [Bool.or_eq_true, decide_eq_true_eq, List.any_eq_true, String.isEmpty_iff, not_or,
      not_exists, not_and, List.length_append, List.length_singleton] at hfits
    refine ⟨⟨component, function, suffix, ?_, hfits.2, hdot, fun h => ?_⟩, hname, ha⟩
    · rintro rfl
      exact hfits.1 (by decide)
    · exact Suffix.ofName?_eq_none_iff.1 (hplain h function hlast)

/-- Reading a name gives the address of its spelling, and only that. -/
theorem parse?_eq_some_iff {name : String} {a : Address} :
    parse? name = some a ↔ ∃ s : Spelling, s.name = name ∧ s.address = a := by
  constructor
  · exact exists_of_parse?
  · rintro ⟨s, rfl, rfl⟩
    exact parse?_name s

/-- A spelling can be told from its address. -/
theorem eq_of_address_eq {s t : Spelling} (h : s.address = t.address) : s = t := by
  have hcomponent := s.splitOn_component
  rw [h, t.splitOn_component] at hcomponent
  have hfunction : s.address.function = t.address.function := by rw [h]
  have hsuffix : s.address.suffix = t.address.suffix := by rw [h]
  exact Spelling.ext hcomponent.symm hfunction hsuffix

/-- An address that is read off a name gives the name back, and its component and its function are
made of segments. Every spelling is read as what it spells; all other names are without an address,
and no two spellings have one name. -/
theorem parse?_reads_spellings :
    (∀ {name : String} {a : Address}, parse? name = some a →
      a.component ++ "." ++ a.function ++ (a.suffix.map fun s => "." ++ s.name).getD "" = name ∧
      a.function ≠ "" ∧ '.' ∉ a.function.toList ∧
      ∀ segment ∈ a.component.toList.splitOn '.', segment ≠ []) ∧
    (∀ s : Spelling, parse? s.name = some s.address) ∧
    (∀ name, parse? name = none ↔ ∀ s : Spelling, s.name ≠ name) ∧
    ∀ s t : Spelling, s.name = t.name → s = t := by
  refine ⟨fun h => ?_, parse?_name, fun name => ?_, fun s t h => ?_⟩
  · obtain ⟨s, rfl, rfl⟩ := exists_of_parse? h
    have hfunction : s.function ∈ s.component ++ [s.function] := by simp
    refine ⟨s.name_eq.symm, s.ne_empty _ hfunction, s.dot_notMem _ hfunction, ?_⟩
    intro segment hsegment
    have hmem : String.ofList segment ∈ s.component := by
      rw [← s.splitOn_component]
      exact List.mem_map_of_mem hsegment
    rintro rfl
    exact s.ne_empty _ (List.mem_append_left _ hmem) rfl
  · simp only [Option.eq_none_iff_forall_ne_some, Ne, parse?_eq_some_iff, not_exists, not_and]
    exact ⟨fun h s hs => h s.address s hs rfl, fun h a s hs => absurd hs (h s)⟩
  · refine eq_of_address_eq (Option.some.inj ?_)
    rw [← parse?_name, ← parse?_name, h]

/-- A function may be a word for a suffix if a suffix follows. -/
theorem parse?_reads_spellings_returned :
    parse? "R.A.Call.Return" = some ⟨"R.A", "Call", some .returned⟩ ∧
      "R.A" ++ "." ++ "Call" ++ ("." ++ "Return") = "R.A.Call.Return" ∧ '.' ∉ "Call".toList ∧
      ∀ segment ∈ "R.A".toList.splitOn '.', segment ≠ [] := by
  have hparse : parse? "R.A.Call.Return" = some ⟨"R.A", "Call", some .returned⟩ := by
    decide +kernel
  obtain ⟨hname, -, hdot, hsegments⟩ := parse?_reads_spellings.1 hparse
  exact ⟨hparse, hname, hdot, hsegments⟩

end Address

end SkillCompiler
