import SkillCompiler.Proofs.Registry.Seen

/-!
# Runs of a registry

A run is a sequence of calls that register one event or a round of them. A round ends early at the
first event whose name is new and cannot be classified, and the events after it are not seen. After
every run the registry is that of the events seen (`value_run`), and a round that does not fail is
reported by the names it brought (`Counts`).
-/

namespace SkillCompiler

/-- The elements up to the first that has a property. -/
def throughFirst {α : Type} (p : α → Bool) : List α → List α
  | [] => []
  | a :: l => if p a then [a] else a :: throughFirst p l

theorem throughFirst_eq_self {α : Type} {p : α → Bool} :
    ∀ {l : List α}, (∀ a ∈ l, p a = false) → throughFirst p l = l
  | [], _ => rfl
  | a :: l, h => by
    rw [List.forall_mem_cons] at h
    rw [throughFirst, if_neg (by simp [h.1]), throughFirst_eq_self h.2]

namespace Registry

variable {classify : Classify}

/-- The event ends a round: its name is new and cannot be classified. -/
def stops (classify : Classify) (known : List String) (e : Event) : Bool :=
  e.name ∉ known && !(answer classify e.name).isOk

theorem populateFrom_cons (classify : Classify) (sum : Registration) (r : Registry) (e : Event)
    (rest : List Event) :
    (populateFrom classify sum r (e :: rest)).value =
      if e.name ∈ r.names then (populateFrom classify (r.tally e false sum) r rest).value
      else
        match answer classify e.name with
        | .error error => (.error error, r.learn classify e)
        | .ok _ =>
          (populateFrom classify ((r.learn classify e).tally e true sum) (r.learn classify e)
            rest).value := by
  rw [populateFrom, Logged.value_bind, value_register]
  by_cases h : e.name ∈ r.names
  · simp [h, learn]
  · simp only [h, if_false]
    cases answer classify e.name <;> rfl

theorem stops_learn {r : Registry} {e : Event} (h : (answer classify e.name).isOk) :
    stops classify (r.learn classify e).names = stops classify r.names := by
  funext x
  rw [stops, stops, names_learn]
  split
  · rfl
  · by_cases hx : x.name = e.name
    · simp [hx, h]
    · simp [hx]

theorem populateFrom_registry (classify : Classify) :
    ∀ (events : List Event) (sum : Registration) (r : Registry),
      (populateFrom classify sum r events).value.2 =
        (throughFirst (stops classify r.names) events).foldl (learn classify) r
  | [], _, _ => rfl
  | e :: rest, sum, r => by
    rw [populateFrom_cons, throughFirst]
    by_cases h : e.name ∈ r.names
    · have hlearn : r.learn classify e = r := if_pos h
      rw [if_pos h, populateFrom_registry classify rest, if_neg (by simp [stops, h]),
        List.foldl_cons, hlearn]
    · rw [if_neg h]
      cases ha : answer classify e.name with
      | error error =>
        rw [if_pos (by simp [stops, h, ha, Except.isOk, Except.toBool])]
        rfl
      | ok found =>
        have hok : (answer classify e.name).isOk := by rw [ha]; rfl
        rw [populateFrom_registry classify rest, stops_learn hok,
          if_neg (by simp [stops, hok]), List.foldl_cons]

/-- A round succeeds if every event with a new name can be classified. -/
theorem populateFrom_ok_iff (classify : Classify) :
    ∀ (events : List Event) (sum : Registration) (r : Registry),
      (∃ report, (populateFrom classify sum r events).value.1 = .ok report) ↔
        ∀ e ∈ events, e.name ∉ r.names → (answer classify e.name).isOk
  | [], sum, _ => by simp [populateFrom]
  | e :: rest, sum, r => by
    rw [populateFrom_cons]
    by_cases h : e.name ∈ r.names
    · rw [if_pos h, populateFrom_ok_iff classify rest]
      simp [h]
    · rw [if_neg h]
      cases ha : answer classify e.name with
      | error error => simp [h, ha, Except.isOk, Except.toBool]
      | ok found =>
        have hok : (answer classify e.name).isOk := by rw [ha]; rfl
        rw [populateFrom_ok_iff classify rest, names_learn, if_neg h, List.forall_mem_cons]
        refine ⟨fun hrest => ⟨fun _ => hok, fun x hx hnew => ?_⟩, fun hall x hx hnew => ?_⟩
        · by_cases hxe : x.name = e.name
          · rw [hxe]
            exact hok
          · exact hrest x hx (by simp [hnew, hxe])
        · exact hall.2 x hx fun hmem => hnew (List.mem_append_left _ hmem)

/-- A round that ends well has seen all events. -/
theorem registry_of_populateFrom {events : List Event} {sum report : Registration}
    {r r' : Registry} (h : (populateFrom classify sum r events).value = (.ok report, r')) :
    r' = events.foldl (learn classify) r := by
  have hok := (populateFrom_ok_iff classify events sum r).1 ⟨report, congrArg Prod.fst h⟩
  have hnone : ∀ e ∈ events, stops classify r.names e = false := by
    intro e he
    by_cases hknown : e.name ∈ r.names
    · simp [stops, hknown]
    · simp [stops, hok e he hknown]
  have hregistry := populateFrom_registry classify events sum r
  rwa [throughFirst_eq_self hnone, h] at hregistry

theorem told_populateFrom (classify : Classify) :
    ∀ (events : List Event) (sum : Registration) (r : Registry),
      told classify r ++ (populateFrom classify sum r events).log.filter isForeign =
        told classify (populateFrom classify sum r events).value.2
  | [], _, _ => List.append_nil _
  | e :: rest, sum, r => by
    rw [populateFrom, Logged.log_bind, Logged.value_bind, List.filter_append, ← List.append_assoc,
      told_register]
    rcases (r.register classify e).value with ⟨outcome, r'⟩
    cases outcome with
    | error error => exact List.append_nil _
    | ok isNew => exact told_populateFrom classify rest _ r'

/-! ## Reports -/

def isReserved (name : String) : Bool := (ReservedEvent.ofName? name).isSome

/-- A name to be remarked: it could have been classified but no declaration matched. -/
def isUnclassified (classify : Classify) (name : String) : Bool :=
  !isReserved name &&
    match answer classify name with
    | .ok (_, found) => !found.isClassified
    | .error _ => false

/-- The report on events that brought some new names. -/
structure Counts (classify : Classify) (events : List Event) (fresh : List String)
    (sum : Registration) : Prop where
  total : sum.registered + sum.duplicates = events.length
  registered : sum.registered = fresh.length
  reserved : sum.reserved = fresh.countP isReserved
  unclassified : sum.unclassified = fresh.filter (isUnclassified classify)

theorem get?_learn {r : Registry} {e : Event} (h : e.name ∉ r.names) :
    (r.learn classify e).get? e.name = recordOf? classify e := by
  have hnone : r.entries.find? (fun entry => entry.1 = e.name) = none := by
    refine List.find?_eq_none.2 fun entry hentry hname => h ?_
    exact List.mem_map.2 ⟨entry, hentry, by simpa using hname⟩
  rw [learn, if_neg h, get?, Assoc.get?, List.find?_append, hnone]
  simp

theorem Counts.known {events : List Event} {fresh : List String} {sum : Registration}
    (h : Counts classify events fresh sum) (r : Registry) (e : Event) :
    Counts classify (events ++ [e]) fresh (r.tally e false sum) := by
  refine ⟨?_, h.registered, h.reserved, h.unclassified⟩
  have := h.total
  simp only [tally, Bool.false_eq_true, if_false, List.length_append, List.length_singleton]
  omega

theorem Counts.fresh {events : List Event} {fresh : List String} {sum : Registration}
    (h : Counts classify events fresh sum) {r : Registry} {e : Event} (hnew : e.name ∉ r.names)
    {address : Option Address} {found : Classification}
    (ha : answer classify e.name = .ok (address, found)) :
    Counts classify (events ++ [e]) (fresh ++ [e.name])
      ((r.learn classify e).tally e true sum) := by
  have hrecord : (r.learn classify e).get? e.name = some ⟨e, address, found⟩ := by
    rw [get?_learn hnew, recordOf?, ha]
  have htally : (r.learn classify e).tally e true sum =
      ⟨sum.registered + 1, sum.duplicates, sum.reserved + [e.name].countP isReserved,
        sum.unclassified ++ [e.name].filter (isUnclassified classify)⟩ := by
    simp only [tally, if_true, hrecord, Event.reserved?, List.countP_singleton, List.filter_cons,
      List.filter_nil, isReserved, isUnclassified, ha]
    by_cases hr : (ReservedEvent.ofName? e.name).isSome <;>
      by_cases hc : found.isClassified <;> simp [hr, hc]
  rw [htally]
  refine ⟨?_, ?_, ?_, ?_⟩
  · have := h.total
    simp only [List.length_append, List.length_singleton]
    omega
  · rw [h.registered, List.length_append, List.length_singleton]
  · rw [h.reserved, List.countP_append]
  · rw [h.unclassified, List.filter_append]

/-- A round that succeeds has counted every event and every name that it brought. -/
theorem populateFrom_counts (classify : Classify) (known : List String) :
    ∀ (events done : List Event) (fresh : List String) (sum report : Registration) (r : Registry),
      r.names = known ++ fresh → Counts classify done fresh sum →
        (populateFrom classify sum r events).value.1 = .ok report →
          ∃ fresh', (populateFrom classify sum r events).value.2.names = known ++ fresh' ∧
            Counts classify (done ++ events) fresh' report
  | [], done, fresh, sum, report, r, hnames, hsum, hok => by
    refine ⟨fresh, hnames, ?_⟩
    rw [List.append_nil, ← Except.ok.inj hok]
    exact hsum
  | e :: rest, done, fresh, sum, report, r, hnames, hsum, hok => by
    rw [populateFrom_cons] at hok ⊢
    rw [← List.singleton_append, ← List.append_assoc]
    by_cases h : e.name ∈ r.names
    · rw [if_pos h] at hok ⊢
      exact populateFrom_counts classify known rest _ fresh _ report r hnames (hsum.known r e) hok
    · rw [if_neg h] at hok ⊢
      cases ha : answer classify e.name with
      | error error => simp [ha] at hok
      | ok answered =>
        simp only [ha] at hok ⊢
        refine populateFrom_counts classify known rest _ (fresh ++ [e.name]) _ report _ ?_
          (hsum.fresh h ha) hok
        rw [names_learn, if_neg h, hnames, List.append_assoc]

/-! ## Runs -/

/-- A call that registers one event or a round of them. -/
inductive Call where
  | register (e : Event)
  | populate (events : List Event)

namespace Call

def perform (classify : Classify) (r : Registry) : Call → Logged Registry
  | .register e => do return (← r.register classify e).2
  | .populate events => do return (← r.populate classify events).2

/-- The events of a call that are seen by a registry that knows some names. -/
def seen (classify : Classify) (known : List String) : Call → List Event
  | .register e => [e]
  | .populate events => throughFirst (stops classify known) events

theorem value_perform (classify : Classify) (r : Registry) (call : Call) :
    (call.perform classify r).value =
      (call.seen classify r.names).foldl (learn classify) r := by
  cases call with
  | register e => rw [perform, Logged.value_bind, value_register]; rfl
  | populate events => exact populateFrom_registry classify events {} r

theorem seen_eraseDups (classify : Classify) (known : List String) (call : Call) :
    call.seen classify known.eraseDups = call.seen classify known := by
  have hstops : stops classify known.eraseDups = stops classify known := by
    funext e
    simp [stops, List.mem_eraseDups]
  cases call with
  | register e => rfl
  | populate events => rw [seen, seen, hstops]

theorem told_perform (classify : Classify) (r : Registry) (call : Call) :
    told classify r ++ (call.perform classify r).log.filter isForeign =
      told classify (call.perform classify r).value := by
  cases call with
  | register e =>
    rw [perform, Logged.log_bind, Logged.log_pure, List.append_nil, told_register]
    rfl
  | populate events =>
    rw [perform, Logged.log_bind, Logged.log_pure, List.append_nil]
    exact told_populateFrom classify events {} r

end Call

/-- The registry after some calls. -/
def run (classify : Classify) (calls : List Call) : Logged Registry :=
  calls.foldlM (Call.perform classify) empty

/-- The events that are seen in some calls, in order. -/
def seen (classify : Classify) (calls : List Call) : List Event :=
  calls.foldl (fun before call => before ++ call.seen classify (before.map Event.name)) []

theorem value_run (classify : Classify) (calls : List Call) :
    (run classify calls).value = ofSeen classify (seen classify calls) := by
  have hcalls : ∀ (calls : List Call) (before : List Event),
      calls.foldl (fun r call => (call.perform classify r).value) (ofSeen classify before) =
        ofSeen classify (calls.foldl (fun before call =>
          before ++ call.seen classify (before.map Event.name)) before) := by
    intro calls
    induction calls with
    | nil => exact fun _ => rfl
    | cons call calls ih =>
      intro before
      rw [List.foldl_cons, List.foldl_cons, Call.value_perform, names_ofSeen, Call.seen_eraseDups,
        foldl_learn, ih]
  rw [run, Logged.value_foldlM]
  exact hcalls calls []

/-- Over a run the classifier is asked once for every name that is classified at all. -/
theorem told_run (classify : Classify) (calls : List Call) :
    (run classify calls).log.filter isForeign = told classify (run classify calls).value := by
  have hcalls : ∀ (calls : List Call) (r : Registry),
      told classify r ++ (calls.foldlM (Call.perform classify) r).log.filter isForeign =
        told classify (calls.foldlM (Call.perform classify) r).value := by
    intro calls
    induction calls with
    | nil => exact fun _ => List.append_nil _
    | cons call calls ih =>
      intro r
      rw [List.foldlM_cons, Logged.log_bind, Logged.value_bind, List.filter_append,
        ← List.append_assoc, Call.told_perform, ih]
  exact hcalls calls empty

theorem seen_append (classify : Classify) (calls later : List Call) :
    ∃ more, seen classify (calls ++ later) = seen classify calls ++ more := by
  have hmore : ∀ (later : List Call) (before : List Event), ∃ more,
      later.foldl (fun before call => before ++ call.seen classify (before.map Event.name))
        before = before ++ more := by
    intro later
    induction later with
    | nil => exact fun before => ⟨[], (List.append_nil _).symm⟩
    | cons call later ih =>
      intro before
      obtain ⟨more, hmore⟩ := ih (before ++ call.seen classify (before.map Event.name))
      exact ⟨_, hmore.trans (List.append_assoc ..)⟩
  rw [seen, List.foldl_append]
  exact hmore later _

/-! ## What a run comes to -/

/-- A registry knows the events it has seen by the first of each name. -/
structure Remembers (classify : Classify) (seen : List Event) (r : Registry) : Prop where
  names : r.names = (seen.map Event.name).eraseDups
  nodup : r.names.Nodup
  record : ∀ name, r.get? name = (seen.find? (·.name = name)).bind (recordOf? classify)
  records : r.records = r.names.filterMap r.get?

theorem remembers_ofSeen (classify : Classify) (seen : List Event) :
    Remembers classify seen (ofSeen classify seen) where
  names := names_ofSeen classify seen
  nodup := by
    rw [names_ofSeen]
    exact Assoc.nodup_eraseDups _
  record := get?_ofSeen classify seen
  records := records_ofSeen classify seen

/-- A report on a round of events, by the registry before and after it. -/
structure Accounts (before after : Registry) (events : List Event) (sum : Registration) :
    Prop where
  kept : before.names <+: after.names
  total : sum.registered + sum.duplicates = events.length
  growth : after.size = before.size + sum.registered
  reserved : sum.reserved = (after.names.drop before.size).countP isReserved
  unclassified : sum.unclassified = (after.names.drop before.size).filter fun name =>
    !isReserved name && (after.get? name).any fun record => !record.classification.isClassified
  nodup : sum.unclassified.Nodup

theorem any_get?_ofSeen {seen : List Event} {name : String} (h : name ∈ seen.map Event.name) :
    (!isReserved name && ((ofSeen classify seen).get? name).any fun record =>
      !record.classification.isClassified) = isUnclassified classify name := by
  obtain ⟨e, he, rfl⟩ := find?_isSome h
  rw [get?_ofSeen, he, Option.bind_some, recordOf?, isUnclassified]
  cases answer classify e.name <;> rfl

theorem size_eq (r : Registry) : r.size = r.names.length := by
  rw [size, names, Assoc.names, List.length_map]

theorem accounts_populate (classify : Classify) (seen events : List Event) (report : Registration)
    (h : ((ofSeen classify seen).populate classify events).value.1 = .ok report) :
    Accounts (ofSeen classify seen) ((ofSeen classify seen).populate classify events).value.2
      events report := by
  have hafter : ((ofSeen classify seen).populate classify events).value.2 =
      ofSeen classify (seen ++
        throughFirst (stops classify (ofSeen classify seen).names) events) := by
    rw [populate, populateFrom_registry, foldl_learn]
  obtain ⟨fresh, hnames, hcounts⟩ := populateFrom_counts classify (ofSeen classify seen).names
    events [] [] {} report (ofSeen classify seen) (List.append_nil _).symm ⟨rfl, rfl, rfl, rfl⟩ h
  rw [← populate] at hnames
  have hfresh : ((ofSeen classify seen).populate classify events).value.2.names.drop
      (ofSeen classify seen).size = fresh := by
    rw [hnames, size_eq, List.drop_left]
  have hnodup : fresh.Nodup := by
    have hall := (remembers_ofSeen classify (seen ++
      throughFirst (stops classify (ofSeen classify seen).names) events)).nodup
    rw [← hafter, hnames] at hall
    exact (List.nodup_append.1 hall).2.1
  have hunclassified : report.unclassified = fresh.filter fun name => !isReserved name &&
      (((ofSeen classify seen).populate classify events).value.2.get? name).any fun record =>
        !record.classification.isClassified := by
    rw [hcounts.unclassified, hafter]
    refine List.filter_congr fun name hname => (any_get?_ofSeen ?_).symm
    rw [← mem_names_ofSeen, ← hafter, hnames]
    exact List.mem_append_right _ hname
  exact {
    kept := ⟨fresh, hnames.symm⟩
    total := hcounts.total
    growth := by rw [size_eq, hnames, List.length_append, ← size_eq, hcounts.registered]
    reserved := by rw [hfresh, hcounts.reserved]
    unclassified := by rw [hfresh, hunclassified]
    nodup := by
      rw [hcounts.unclassified]
      exact hnodup.filter _ }

theorem recordOf?_eq_none {e : Event} (h : (answer classify e.name).isOk = false) :
    recordOf? classify e = none := by
  rw [recordOf?]
  cases ha : answer classify e.name with
  | error error => rfl
  | ok found => simp [ha, Except.isOk, Except.toBool] at h

/-- The classifier with the same answers that leaves one entry each time it is asked. -/
def traced (mark : Address → String) (classify : Classify) : Classify := fun a =>
  ⟨(classify a).value, [.debug .classification (mark a) []]⟩

theorem told_traced (mark : Address → String) (classify : Classify) (r : Registry) :
    told (traced mark classify) r =
      (r.names.filterMap asked?).map fun a => .debug .classification (mark a) [] := by
  rw [told, List.map_eq_flatMap]
  rfl

/-- After every run the registry is what the events seen make it; the classifier has been asked once
for each name it is asked for at all; a name that failed stays, without a record; and a round is
reported by the names that it brought. -/
theorem run_remembers (classify : Classify) (calls : List Call) :
    Remembers classify (seen classify calls) (run classify calls).value ∧
    (∀ mark : Address → String,
      (run (traced mark classify) calls).value = (run classify calls).value ∧
      (run (traced mark classify) calls).log.filter isForeign =
        ((run classify calls).value.names.filterMap asked?).map fun a =>
          .debug .classification (mark a) []) ∧
    (∀ name ∈ (run classify calls).value.names, (answer classify name).isOk = false →
      ∀ later, name ∈ (run classify (calls ++ later)).value.names ∧
        (run classify (calls ++ later)).value.get? name = none) ∧
    (∀ events,
      (∃ report, ((run classify calls).value.populate classify events).value.1 = .ok report) ↔
        ∀ e ∈ events, e.name ∉ (run classify calls).value.names →
          (answer classify e.name).isOk) ∧
    ∀ events report,
      ((run classify calls).value.populate classify events).value.1 = .ok report →
        Accounts (run classify calls).value
          ((run classify calls).value.populate classify events).value.2 events report := by
  have htraced (mark : Address → String) :
      (run (traced mark classify) calls).value = (run classify calls).value := by
    rw [value_run, value_run]
    rfl
  refine ⟨?_, fun mark => ⟨htraced mark, ?_⟩, fun name hname hfailed later => ?_,
    fun events => populateFrom_ok_iff classify events {} _, ?_⟩
  · rw [value_run]
    exact remembers_ofSeen classify _
  · rw [told_run, told_traced, htraced]
  · obtain ⟨more, hmore⟩ := seen_append classify calls later
    rw [value_run, mem_names_ofSeen] at hname
    have hlater : name ∈ (seen classify (calls ++ later)).map Event.name := by
      rw [hmore, List.map_append]
      exact List.mem_append_left _ hname
    obtain ⟨e, he, rfl⟩ := find?_isSome hlater
    rw [value_run, mem_names_ofSeen, get?_ofSeen, he, Option.bind_some]
    exact ⟨hlater, recordOf?_eq_none hfailed⟩
  · rw [value_run]
    exact accounts_populate classify _

/-- Services, of which one is not declared as it should be. -/
def faultyClassify : Classify := fun a =>
  ⟨(if a.function = "g" then .error (.missingDeclaration "ros_service_send_request" a.path)
    else .ok { kind := some .serviceClient }, a), []⟩

def faultyCalls : List Call :=
  [.populate [.send "A.f.Call" [], .send "CMD_TICK" [], .send "A.g.Call" [], .send "A.h.Call" []],
    .register (.send "A.g.Call" [])]

/-- The round after a failed one. -/
def laterEvents : List Event :=
  [.send "A.g.Call" [], .send "Lonely" [], .transition "HALT_RESPONSE" "idle", .send "Lonely" []]

theorem run_remembers_faulty :
    (run faultyClassify faultyCalls).value.names = ["A.f.Call", "CMD_TICK", "A.g.Call"] ∧
    (run (traced Address.function faultyClassify) faultyCalls).log.filter isForeign =
      [.debug .classification "f" [], .debug .classification "g" []] ∧
    (run faultyClassify (faultyCalls ++ faultyCalls)).value.get? "A.g.Call" = none ∧
    Accounts (run faultyClassify faultyCalls).value
      ((run faultyClassify faultyCalls).value.populate faultyClassify laterEvents).value.2
      laterEvents ⟨2, 2, 1, ["Lonely"]⟩ := by
  obtain ⟨hremembers, htrace, hfailed, -, haccounts⟩ := run_remembers faultyClassify faultyCalls
  have hnames : (run faultyClassify faultyCalls).value.names =
      ["A.f.Call", "CMD_TICK", "A.g.Call"] := hremembers.names.trans (by decide +kernel)
  have hreport : ((run faultyClassify faultyCalls).value.populate faultyClassify
      laterEvents).value.1 = .ok ⟨2, 2, 1, ["Lonely"]⟩ := by
    have hsome : ((run faultyClassify faultyCalls).value.populate faultyClassify
        laterEvents).value.1.toOption = some ⟨2, 2, 1, ["Lonely"]⟩ := by decide +kernel
    revert hsome
    cases ((run faultyClassify faultyCalls).value.populate faultyClassify laterEvents).value.1 <;>
      simp [Except.toOption]
  refine ⟨hnames, (htrace Address.function).2.trans ?_, (hfailed "A.g.Call" ?_ ?_ faultyCalls).2,
    haccounts laterEvents _ hreport⟩
  · rw [hnames]
    decide +kernel
  · rw [hnames]
    decide
  · decide +kernel

end Registry

end SkillCompiler
