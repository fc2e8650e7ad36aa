import SkillCompiler.Proofs.Registry.Runs

/-!
# Where a round of registering stops

A round that fails has stopped at the first event whose name is new and cannot be classified
(`StopsAt`). The name of that event is registered like the names before it, so another round over
the same events passes over all of them and goes on with the next (`StopsAt.populate_again`).
-/

namespace SkillCompiler

namespace Registry

variable {classify : Classify}

theorem mem_names_learn {r : Registry} {e : Event} {name : String} :
    name ∈ (r.learn classify e).names ↔ name ∈ r.names ∨ name = e.name := by
  rw [names_learn]
  by_cases hknown : e.name ∈ r.names
  · rw [if_pos hknown]
    exact (or_iff_left_of_imp fun hname => hname ▸ hknown).symm
  · rw [if_neg hknown, List.mem_append, List.mem_singleton]

/-- A round stops at `last`, after the events `before`. All of them have been seen. -/
structure StopsAt (classify : Classify) (r : Registry) (before : List Event) (last : Event)
    (error : CompileError) (r' : Registry) : Prop where
  new : last.name ∉ r.names
  first : last.name ∉ before.map Event.name
  failed : answer classify last.name = .error error
  earlier : ∀ e ∈ before, e.name ∉ r.names → (answer classify e.name).isOk
  seen : r' = (before ++ [last]).foldl (learn classify) r

theorem StopsAt.cons_known {r r' : Registry} {before : List Event} {e last : Event}
    {error : CompileError} (hknown : e.name ∈ r.names)
    (h : StopsAt classify r before last error r') :
    StopsAt classify r (e :: before) last error r' where
  new := h.new
  first := by
    rw [List.map_cons, List.mem_cons, not_or]
    exact ⟨fun hname => h.new (hname ▸ hknown), h.first⟩
  failed := h.failed
  earlier := List.forall_mem_cons.2 ⟨fun hnew => absurd hknown hnew, h.earlier⟩
  seen := by
    have hlearn : r.learn classify e = r := if_pos hknown
    rw [h.seen, List.cons_append, List.foldl_cons, hlearn]

theorem StopsAt.cons_new {r r' : Registry} {before : List Event} {e last : Event}
    {error : CompileError} (hok : (answer classify e.name).isOk)
    (h : StopsAt classify (r.learn classify e) before last error r') :
    StopsAt classify r (e :: before) last error r' := by
  obtain ⟨hlast, hne⟩ := not_or.1 (mt mem_names_learn.2 h.new)
  refine ⟨hlast, ?_, h.failed, List.forall_mem_cons.2 ⟨fun _ => hok, fun x hx hxnew => ?_⟩, h.seen⟩
  · rw [List.map_cons, List.mem_cons, not_or]
    exact ⟨hne, h.first⟩
  · by_cases hname : x.name = e.name
    · rw [hname]
      exact hok
    · exact h.earlier x hx fun hmem => (mem_names_learn.1 hmem).elim hxnew hname

theorem exists_stopsAt (classify : Classify) :
    ∀ (events : List Event) (sum : Registration) (r r' : Registry) (error : CompileError),
      (populateFrom classify sum r events).value = (.error error, r') →
        ∃ before last after, events = before ++ last :: after ∧
          StopsAt classify r before last error r'
  | [], sum, r, r', error, h => by
    cases congrArg Prod.fst h
  | e :: rest, sum, r, r', error, h => by
    rw [populateFrom_cons] at h
    by_cases hknown : e.name ∈ r.names
    · rw [if_pos hknown] at h
      obtain ⟨before, last, after, rfl, hstops⟩ := exists_stopsAt classify rest _ r r' error h
      exact ⟨e :: before, last, after, rfl, hstops.cons_known hknown⟩
    · rw [if_neg hknown] at h
      cases ha : answer classify e.name with
      | error found =>
        rw [ha] at h
        cases h
        exact ⟨[], e, rest, rfl, hknown, List.not_mem_nil, ha, nofun, rfl⟩
      | ok found =>
        rw [ha] at h
        obtain ⟨before, last, after, rfl, hstops⟩ := exists_stopsAt classify rest _ _ r' error h
        have hok : (answer classify e.name).isOk := by rw [ha]; rfl
        exact ⟨e :: before, last, after, rfl, hstops.cons_new hok⟩

theorem mem_names_foldl_learn {name : String} :
    ∀ (events : List Event) (r : Registry),
      name ∈ (events.foldl (learn classify) r).names ↔
        name ∈ r.names ∨ name ∈ events.map Event.name
  | [], r => by simp
  | e :: rest, r => by
    rw [List.foldl_cons, mem_names_foldl_learn rest, mem_names_learn, List.map_cons,
      List.mem_cons, or_assoc]

/-- The event that a round stops at has its name registered, and no record. -/
theorem StopsAt.get?_eq_none {r r' : Registry} {before : List Event} {last : Event}
    {error : CompileError} (h : StopsAt classify r before last error r') :
    last.name ∈ r'.names ∧ r'.get? last.name = none := by
  rw [h.seen]
  refine ⟨(mem_names_foldl_learn _ _).2 (.inr ?_), ?_⟩
  · rw [List.map_append]
    exact List.mem_append_right _ List.mem_cons_self
  · have hnew : last.name ∉ (before.foldl (learn classify) r).names := fun hmem =>
      ((mem_names_foldl_learn _ _).1 hmem).elim h.new h.first
    have hfailed : (answer classify last.name).isOk = false := by rw [h.failed]; rfl
    rw [List.foldl_append, List.foldl_cons, List.foldl_nil, get?_learn hnew,
      recordOf?_eq_none hfailed]

/-- Events whose names are known are counted and passed over. -/
theorem populateFrom_known (classify : Classify) {r : Registry} (rest : List Event) :
    ∀ (known : List Event) (sum : Registration), (∀ e ∈ known, e.name ∈ r.names) →
      (populateFrom classify sum r (known ++ rest)).value =
        (populateFrom classify { sum with duplicates := sum.duplicates + known.length } r
          rest).value
  | [], sum, _ => rfl
  | e :: known, sum, h => by
    have htally : r.tally e false sum = { sum with duplicates := sum.duplicates + 1 } := rfl
    rw [List.cons_append, populateFrom_cons, if_pos (h e List.mem_cons_self), htally,
      populateFrom_known classify rest known _ fun x hx => h x (List.mem_cons_of_mem e hx),
      List.length_cons, Nat.add_assoc, Nat.add_comm 1]

/-- A round that stopped goes on, if it is tried again, after the event it stopped at. -/
theorem StopsAt.populate_again {r r' : Registry} {before after : List Event} {last : Event}
    {error : CompileError} (h : StopsAt classify r before last error r') :
    (r'.populate classify (before ++ last :: after)).value =
      (populateFrom classify { duplicates := before.length + 1 } r' after).value := by
  have hseen : ∀ e ∈ before ++ [last], e.name ∈ r'.names := by
    intro e he
    rw [h.seen, mem_names_foldl_learn]
    exact .inr (List.mem_map_of_mem he)
  rw [populate, List.append_cons, populateFrom_known classify after _ _ hseen,
    List.length_append, List.length_singleton, Nat.zero_add]

end Registry

end SkillCompiler
