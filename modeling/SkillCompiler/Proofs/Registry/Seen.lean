import SkillCompiler.Proofs.Assoc
import SkillCompiler.Proofs.Log
import SkillCompiler.Registry

/-!
# What a registry has seen

A registry is a function of the events it has seen (`ofSeen`): its names are theirs, each where it
comes first, and the record of a name is made of the first event of that name and of what the name
alone is classified as. Registering an event sees one event more (`value_register`,
`learn_ofSeen`), and the classifier is asked only if its name is new and has an address
(`log_register`).
-/

namespace SkillCompiler

namespace Registry

/-- The address that a name is classified by, if it is classified at all. -/
def asked? (name : String) : Option Address :=
  if (ReservedEvent.ofName? name).isSome then none else Address.parse? name

/-- What becomes of a name. -/
def answer (classify : Classify) (name : String) :
    Except CompileError (Option Address × Classification) :=
  match asked? name with
  | none => .ok (none, {})
  | some a => (classify a).value.1.map fun found => (some (classify a).value.2, found)

/-- The record that an event gives its name. -/
def recordOf? (classify : Classify) (e : Event) : Option Record :=
  match answer classify e.name with
  | .ok (address, found) => some ⟨e, address, found⟩
  | .error _ => none

/-- The registry after one more event. -/
def learn (classify : Classify) (r : Registry) (e : Event) : Registry :=
  if e.name ∈ r.names then r else ⟨r.entries ++ [(e.name, recordOf? classify e)]⟩

/-- The registry of some events. -/
def ofSeen (classify : Classify) (seen : List Event) : Registry :=
  ⟨(seen.map Event.name).eraseDups.map fun name =>
    (name, (seen.find? (·.name = name)).bind (recordOf? classify))⟩

/-- The entry does not come from the registry itself. -/
def isForeign (entry : Entry) : Bool := entry.area ≠ .registry

/-! ## One event -/

theorem contains_eq (r : Registry) (name : String) : r.contains name = decide (name ∈ r.names) := by
  rw [contains, Assoc.contains, names, Assoc.names, Bool.eq_iff_iff, List.any_eq_true,
    decide_eq_true_iff, List.mem_map]
  simp only [decide_eq_true_iff]

variable {classify : Classify}

theorem put_of_notMem {r : Registry} {name : String} (h : name ∉ r.names)
    (record : Option Record) : r.put name record = ⟨r.entries ++ [(name, record)]⟩ := by
  rw [put, Assoc.insert_of_notMem h]

theorem put_put_of_notMem {r : Registry} {name : String} (h : name ∉ r.names)
    (old new : Option Record) : (r.put name old).put name new = ⟨r.entries ++ [(name, new)]⟩ := by
  rw [put_of_notMem h, put, Assoc.insert_concat h]

/-- What registering an event comes to. -/
theorem value_register (classify : Classify) (r : Registry) (e : Event) :
    (r.register classify e).value =
      (if e.name ∈ r.names then .ok false else (answer classify e.name).map fun _ => true,
        r.learn classify e) := by
  by_cases h : e.name ∈ r.names
  · simp [register, contains_eq, h, learn]
  · simp only [register, contains_eq, h, decide_false, Bool.false_eq_true, if_false, learn,
      Logged.value_bind, answer, asked?, recordOf?, Event.reserved?]
    by_cases hr : (ReservedEvent.ofName? e.name).isSome
    · simp [hr, put_put_of_notMem h, Except.map]
    · cases Address.parse? e.name with
      | none => simp [hr, put_put_of_notMem h, Except.map]
      | some a =>
        rcases hc : (classify a).value with ⟨found, a'⟩
        cases found with
        | error error => simp [hr, hc, put_of_notMem h, Except.map]
        | ok found => simp [hr, hc, put_put_of_notMem h, Except.map]

@[simp] theorem isForeign_debug (message : String) (fields : List (String × String)) :
    isForeign (.debug .registry message fields) = false := rfl

@[simp] theorem isForeign_warn (message : String) (fields : List (String × String)) :
    isForeign (.warn .registry message fields) = false := rfl

/-- The classifier is asked for the address of a name that is new. -/
theorem log_register (classify : Classify) (r : Registry) (e : Event) :
    (r.register classify e).log.filter isForeign =
      if e.name ∈ r.names then []
      else (asked? e.name).elim [] fun a => (classify a).log.filter isForeign := by
  by_cases h : e.name ∈ r.names
  · simp [register, contains_eq, h]
  · simp only [register, contains_eq, h, decide_false, Bool.false_eq_true, if_false,
      Event.reserved?, asked?]
    by_cases hr : (ReservedEvent.ofName? e.name).isSome
    · simp [hr]
    · cases Address.parse? e.name with
      | none => simp [hr]
      | some a =>
        rcases hc : (classify a).value with ⟨found, a'⟩
        cases found <;> simp [hr, hc]

theorem names_learn (classify : Classify) (r : Registry) (e : Event) :
    (r.learn classify e).names = if e.name ∈ r.names then r.names else r.names ++ [e.name] := by
  unfold learn
  split
  · rfl
  · simp [names, Assoc.names]

/-- What the classifier notes when it is asked for every name once. -/
def told (classify : Classify) (r : Registry) : List Entry :=
  (r.names.filterMap asked?).flatMap fun a => (classify a).log.filter isForeign

theorem told_register (classify : Classify) (r : Registry) (e : Event) :
    told classify r ++ (r.register classify e).log.filter isForeign =
      told classify (r.register classify e).value.2 := by
  rw [log_register, value_register, told, told, names_learn]
  split
  · exact List.append_nil _
  · rw [List.filterMap_append, List.flatMap_append]
    cases h : asked? e.name <;> simp [h]

/-! ## The registry of some events -/

theorem names_ofSeen (classify : Classify) (seen : List Event) :
    (ofSeen classify seen).names = (seen.map Event.name).eraseDups := by
  simp [names, Assoc.names, ofSeen, Function.comp_def]

theorem mem_names_ofSeen {seen : List Event} {name : String} :
    name ∈ (ofSeen classify seen).names ↔ name ∈ seen.map Event.name := by
  rw [names_ofSeen, List.mem_eraseDups]

theorem find?_isSome {seen : List Event} {name : String} (h : name ∈ seen.map Event.name) :
    ∃ e, seen.find? (·.name = name) = some e ∧ e.name = name := by
  obtain ⟨x, hx, rfl⟩ := List.mem_map.1 h
  have hsome : (seen.find? (·.name = x.name)).isSome := List.find?_isSome.2 ⟨x, hx, by simp⟩
  obtain ⟨e, he⟩ := Option.isSome_iff_exists.1 hsome
  exact ⟨e, he, by simpa using List.find?_some he⟩

theorem find?_eq_none {seen : List Event} {name : String} (h : name ∉ seen.map Event.name) :
    seen.find? (·.name = name) = none :=
  List.find?_eq_none.2 fun e he hn => h (List.mem_map.2 ⟨e, he, by simpa using hn⟩)

theorem get?_ofSeen (classify : Classify) (seen : List Event) (name : String) :
    (ofSeen classify seen).get? name =
      (seen.find? (·.name = name)).bind (recordOf? classify) := by
  rw [get?, ofSeen, Assoc.get?_map]
  by_cases h : name ∈ seen.map Event.name
  · rw [if_pos (List.mem_eraseDups.2 h)]
    rfl
  · rw [if_neg (mt List.mem_eraseDups.1 h), find?_eq_none h]
    rfl

theorem records_ofSeen (classify : Classify) (seen : List Event) :
    (ofSeen classify seen).records =
      (ofSeen classify seen).names.filterMap (ofSeen classify seen).get? := by
  have hget : (ofSeen classify seen).get? = fun name =>
      (seen.find? (·.name = name)).bind (recordOf? classify) := funext (get?_ofSeen classify seen)
  rw [hget, names_ofSeen, records, ofSeen, List.filterMap_map]
  rfl

/-- One more event is seen. -/
theorem learn_ofSeen (classify : Classify) (seen : List Event) (e : Event) :
    (ofSeen classify seen).learn classify e = ofSeen classify (seen ++ [e]) := by
  have hold : ∀ name ∈ (seen.map Event.name).eraseDups,
      (name, (seen.find? (·.name = name)).bind (recordOf? classify)) =
        (name, ((seen ++ [e]).find? (·.name = name)).bind (recordOf? classify)) := by
    intro name hname
    obtain ⟨x, hx, -⟩ := find?_isSome (List.mem_eraseDups.1 hname)
    rw [List.find?_append, hx, Option.some_or]
  by_cases h : e.name ∈ seen.map Event.name
  · rw [learn, if_pos (mem_names_ofSeen.2 h), ofSeen, ofSeen, List.map_append, List.map_singleton,
      Assoc.eraseDups_concat, if_pos h]
    exact congrArg mk (List.map_congr_left hold)
  · have hlast : (seen ++ [e]).find? (·.name = e.name) = some e := by
      rw [List.find?_append, find?_eq_none h]
      simp
    rw [learn, if_neg (mt mem_names_ofSeen.1 h), ofSeen, ofSeen, List.map_append,
      List.map_singleton, Assoc.eraseDups_concat, if_neg h, List.map_append, List.map_singleton,
      hlast]
    exact congrArg (fun entries => mk (entries ++ _)) (List.map_congr_left hold)

theorem foldl_learn (classify : Classify) :
    ∀ events seen : List Event,
      events.foldl (learn classify) (ofSeen classify seen) = ofSeen classify (seen ++ events)
  | [], seen => by rw [List.append_nil]; rfl
  | e :: events, seen => by
    rw [List.foldl_cons, learn_ofSeen, foldl_learn classify events, List.append_assoc,
      List.singleton_append]

end Registry

end SkillCompiler
