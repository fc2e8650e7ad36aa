import SkillCompiler.Proofs.Canonical.Writable
import SkillCompiler.Proofs.Event.Tree
import SkillCompiler.Proofs.Pipeline.Stage
import SkillCompiler.Proofs.Registry.Runs

/-!
# Reading a canonical statechart back

A canonical statechart that was written can be read back and has the same events
(`exists_reparsed`), although its texts may have been joined, trimmed or lost. What is registered
is determined by the events and by where the round stops (`Registers`). So it does not matter
whether one run translates and generates, or one run translates and a later one generates from what
it wrote, as long as every event can be classified in both (`reread_registers_alike`). The
declarations are not written, so what stops the one run need not stop the other
(`generate_registers_more`).
-/

namespace SkillCompiler

open Document Markup Step

/-! ## The document -/

/-- In a linked document only elements have children. -/
theorem Document.Shows.regular {doc : Document} (hl : doc.Linked) :
    ∀ {parent : Option NodeId} {t : NodeForest}, doc.Shows parent t →
      (∀ c ∈ (t.map Prod.snd).preorder, Writable c) → Regular (t.map Prod.snd)
  | _, .nil, _, _ => trivial
  | parent, .node p b a, h, hw => by
    simp only [Forest.map_node, Forest.preorder_node, List.mem_cons, List.mem_append] at hw
    have hb := Shows.regular hl h.2.1 fun c hc => hw c (.inr (.inl hc))
    have ha := Shows.regular hl h.2.2 fun c hc => hw c (.inr (.inr hc))
    refine ⟨?_, fun htag => ?_, hb, ha⟩
    · have hc : Writable p.2 := hw _ (.inl rfl)
      cases hp : p.2 with
      | element tag as =>
        rw [hp] at hc
        exact hc.2.2
      | _ => exact distinct_nil
    · cases hb : b with
      | nil => rfl
      | node q x y =>
        have helement := hl.isElement p.1 (by rw [children_of_node? h.1, hb]; simp)
        rw [Document.tag?, content?_of_node? h.1, Option.bind_some, htag] at helement
        cases helement

namespace Canonical

variable {text : String} {doc : Document} {c : Canonical}

/-- What is written for a canonical statechart is read as a document with the same events. -/
theorem exists_reparsed (hparse : Document.parse text = .ok doc)
    (hnames : ∀ x ∈ doc.forest.preorder, Named x)
    (hquotes : ∀ d ∈ doc.declaration, ∀ p ∈ parts d, '"' ∉ p.2.toList)
    (hc : (canonicalize doc).result = .ok c) :
    ∃ doc', Document.parse c.document.print = .ok doc' ∧
      Event.ofStatechart doc' = Event.ofStatechart c.document := by
  obtain ⟨hw, hd⟩ := writable_of_parse hparse hnames hquotes
  obtain ⟨declaration, t, htree, rfl⟩ := exists_ofForest_of_parse hparse
  obtain ⟨tag, as, below, rfl, hreg⟩ := id htree
  have hs : (ofForest declaration (.node (.element tag as) below .nil)).Holds
      (.element tag as) below :=
    ⟨number 1 below, hasTree_ofForest declaration htree, map_snd_number ..⟩
  have hh := holds_of_canonicalize hs hreg.2.2.1 hc
  have hw' := writable_of_canonicalize hs hreg.2.2.1 hw hc
  have hd' : ∀ d ∈ c.document.declaration, ∀ p ∈ parts d, WritableValue p.2 := by
    rw [declaration_of_canonicalize hc]
    exact hd
  have hback := parse_print hh.forest_eq hw' hd'
  have hsettled := regular_settled [] hw'
  rw [hh.forest_eq] at hw' hsettled
  have hholds : (ofForest c.document.declaration _).Holds _ _ :=
    ⟨number 1 _, hasTree_ofForest c.document.declaration ⟨_, _, _, rfl, hsettled⟩,
      map_snd_number ..⟩
  refine ⟨_, hback, ?_⟩
  rw [Event.ofStatechart_eq hh, Event.ofStatechart_eq hholds, Event.ofTree_settled]
  obtain ⟨t, ht, hbelow⟩ := hh
  rw [← hbelow] at hw' ⊢
  refine ht.shows.2.1.regular ht.linked fun x hx => hw' x ?_
  simp [hx]

end Canonical

/-! ## The registry -/

namespace Registry

/-- The events that were registered, in the order of their names. -/
def events (r : Registry) : List Event := r.records.map Record.event

/-- The first event of each name. -/
def firsts (events : List Event) : List Event :=
  (events.map Event.name).eraseDups.filterMap fun name => events.find? (·.name = name)

/-- What a round of registering leaves that began with nothing. The names are a front part of all
names. The first event of each name is there if the round has ended well, and otherwise only if
there was nothing to register. -/
structure Registers (events : List Event) (ended : Bool) (r : Registry) : Prop where
  names : r.names <+: (events.map Event.name).eraseDups
  names_of_ended : ended → r.names = (events.map Event.name).eraseDups
  events_iff : r.events = firsts events ↔ ended ∨ events = []

theorem mem_firsts_of_mem {events : List Event} {e : Event} (h : e ∈ events) :
    ∃ x ∈ firsts events, x.name = e.name := by
  have hname : e.name ∈ events.map Event.name := List.mem_map_of_mem h
  obtain ⟨x, hx, hxe⟩ := find?_isSome hname
  exact ⟨x, List.mem_filterMap.2 ⟨e.name, List.mem_eraseDups.2 hname, hx⟩, hxe⟩

theorem firsts_ne_nil {events : List Event} (h : events ≠ []) : firsts events ≠ [] := by
  obtain ⟨e, he⟩ := List.exists_mem_of_ne_nil events h
  obtain ⟨x, hx, -⟩ := mem_firsts_of_mem he
  exact List.ne_nil_of_mem hx

/-- What has a record was classified. -/
theorem isOk_of_mem_events {classify : Classify} {seen : List Event} {e : Event}
    (h : e ∈ (ofSeen classify seen).events) : (answer classify e.name).isOk := by
  rw [events, records_ofSeen] at h
  obtain ⟨record, hrecord, rfl⟩ := List.mem_map.1 h
  obtain ⟨name, -, hget⟩ := List.mem_filterMap.1 hrecord
  rw [get?_ofSeen] at hget
  obtain ⟨x, -, hx⟩ := Option.bind_eq_some_iff.1 hget
  unfold recordOf? at hx
  split at hx
  · rename_i hanswer
    cases hx
    rw [hanswer]
    rfl
  · cases hx

theorem Registers.empty (events : List Event) : Registers events false .empty where
  names := List.nil_prefix
  names_of_ended h := by cases h
  events_iff := by
    constructor
    · intro h
      by_cases he : events = []
      · exact .inr he
      · exact absurd h.symm (firsts_ne_nil he)
    · rintro (h | rfl)
      · cases h
      · rfl

/-- All names are there, and each has a record, made of its first event. -/
theorem Registers.of_ok {classify : Classify} {events : List Event} {sum : Registration}
    {r : Registry} (h : (Registry.empty.populate classify events).value = (.ok sum, r)) :
    Registers events true r := by
  have hok : ∀ e ∈ events, (answer classify e.name).isOk := by
    have hround := (populateFrom_ok_iff classify events {} .empty).1 ⟨sum, congrArg Prod.fst h⟩
    exact fun e he => hround e he List.not_mem_nil
  have hr : r = ofSeen classify events :=
    (registry_of_populateFrom h).trans (foldl_learn classify events [])
  have hnames : r.names = (events.map Event.name).eraseDups := by rw [hr, names_ofSeen]
  refine ⟨hnames ▸ List.prefix_rfl, fun _ => hnames, iff_of_true ?_ (.inl rfl)⟩
  rw [hr, Registry.events, firsts, records_ofSeen, names_ofSeen, List.map_filterMap]
  refine List.filterMap_congr fun name _ => ?_
  rw [get?_ofSeen]
  cases hfind : events.find? (·.name = name) with
  | none => rfl
  | some e =>
    have hanswer := hok e (List.mem_of_find?_eq_some hfind)
    rw [Option.bind_some, recordOf?]
    cases ha : answer classify e.name with
    | error error =>
      rw [ha] at hanswer
      cases hanswer
    | ok found => rfl

/-- The name that the round stops at has no record, so its first event is missing. -/
theorem Registers.of_error {classify : Classify} {events : List Event} {error : CompileError}
    {r : Registry} (h : (Registry.empty.populate classify events).value = (.error error, r)) :
    Registers events false r := by
  obtain ⟨before, last, after, rfl, hstops⟩ := exists_stopsAt classify _ _ _ _ _ h
  have hr : r = ofSeen classify (before ++ [last]) :=
    hstops.seen.trans (foldl_learn classify (before ++ [last]) [])
  refine ⟨?_, nofun, iff_of_false (fun hevents => ?_) (by simp)⟩
  · have hall : (before ++ last :: after).map Event.name =
        (before ++ [last]).map Event.name ++ after.map Event.name := by simp
    rw [hr, names_ofSeen, hall, List.eraseDups_append]
    exact List.prefix_append _ _
  · obtain ⟨x, hx, hname⟩ :=
      mem_firsts_of_mem (List.mem_append_right before List.mem_cons_self)
    rw [← hevents, hr] at hx
    have hok := isOk_of_mem_events hx
    rw [hname, hstops.failed] at hok
    cases hok

end Registry

/-! ## Runs -/

namespace Pipeline

/-- A run in some mode that has not begun. -/
def ofMode (config : Config) (mode : Mode) : Pipeline := { config := { config with mode } }

variable {config : Config} {files : FileTree} {text : String} {doc : Document} {c : Canonical}

/-- All runs that translate write the same file. -/
theorem exists_written_of_canonicalize {mode₀ : Mode} {w : Workspace} (h₀ : mode₀.translates)
    (hread : files.readText config.input = .ok text) (hparse : Document.parse text = .ok doc)
    (hc : (Canonical.canonicalize doc).result = .ok c)
    (h : outcome canonicalize ⟨ofMode config mode₀, files⟩ = (.ok (), w)) :
    ∃ path files', files'.readText path = .ok c.document.print ∧
      ∀ mode, mode.translates → outcome canonicalize ⟨ofMode config mode, files⟩ =
        (.ok (), ⟨{ ofMode config mode with
          canonical := some c.document, canonicalPath := some path, declarations := some doc,
          stage := .canonicalized }, files'⟩) := by
  obtain ⟨r, files', hwrite, hfile⟩ :=
    exists_outcome_write c (config.outputDir.join "src") files
  have htranslates := fun (mode : Mode) (hmode : mode.translates) =>
    outcome_canonicalize_of_translates (w := ⟨ofMode config mode, files⟩) rfl hmode hread hparse hc
  have houtcome : ∀ mode, outcome (c.write ((ofMode config mode).config.outputDir.join "src"))
      ⟨ofMode config mode, files⟩ = (r, ⟨ofMode config mode, files'⟩) := fun mode => hwrite _
  cases r with
  | error e =>
    rw [htranslates mode₀ h₀, houtcome] at h
    cases h
  | ok path =>
    refine ⟨path, files', hfile path rfl, fun mode hmode => ?_⟩
    rw [htranslates mode hmode, houtcome]

/-- A round of registering after a statechart was made or read, whatever its end. -/
theorem registers_of_classify {w : Workspace} {declarations canonical : Document}
    (hstage : w.pipeline.stage = .canonicalized)
    (hdeclarations : w.pipeline.declarations = some declarations)
    (hcanonical : w.pipeline.canonical = some canonical) (hempty : w.pipeline.registry = .empty) :
    Registry.Registers (Event.ofStatechart canonical) (outcome classify w).1.isOk
      (outcome classify w).2.pipeline.registry := by
  rcases hc : outcome (classifier w.pipeline.config declarations) w with ⟨e | classifier, w₁⟩ <;>
    obtain rfl := (readsFiles_classifier _ _).keeps.eq hc
  · have hround : outcome classify w₁ = (.error e, w₁) :=
      (outcome_bind_ok (outcome_require_of_stage _ hstage)).trans <|
        (outcome_bind_ok (outcome_made _ _ hdeclarations)).trans <|
        (outcome_bind_ok (outcome_made _ _ hcanonical)).trans <|
        (outcome_bind_ok outcome_get).trans (outcome_bind_error hc)
    rw [hround, hempty]
    exact .empty _
  · rw [outcome_classify hstage hdeclarations hcanonical hc, hempty]
    rcases hpopulate : (Registry.empty.populate classifier.classify
      (Event.ofStatechart canonical)).value with ⟨e | sum, r⟩
    · exact .of_error hpopulate
    · exact .of_ok hpopulate

/-- Reading back what was written for a canonical statechart gives the same events. So a run that
translates and generates registers what is registered when one run translates and a later run
generates from the file that the first one wrote, if both of them can classify every event. If one
of them cannot, it registers a front part of the names, and not the events that the other one
registers to the end, unless there are none. -/
theorem reread_registers_alike
    (hparse : Document.parse text = .ok doc) (hnames : ∀ x ∈ doc.forest.preorder, Named x)
    (hquotes : ∀ d ∈ doc.declaration, ∀ p ∈ parts d, '"' ∉ p.2.toList)
    (hc : (Canonical.canonicalize doc).result = .ok c) :
    (∃ doc', Document.parse c.document.print = .ok doc' ∧
      Event.ofStatechart doc' = Event.ofStatechart c.document) ∧
    ∀ (config : Config) (files : FileTree) {w : Workspace},
      files.readText config.input = .ok text →
      outcome canonicalize ⟨ofMode config .full, files⟩ = (.ok (), w) →
      ∃ report translated path,
        outcome run ⟨ofMode config .translateOnly, files⟩ = (.ok report, translated) ∧
        report.canonicalPath = some path ∧
        ∀ config' : Config, config'.input = path →
          ∃ w', outcome canonicalize ⟨ofMode config' .generateOnly, translated.files⟩ =
              (.ok (), w') ∧
            let full := (outcome run ⟨ofMode config .full, files⟩).2.pipeline.registry
            let generated :=
              (outcome run ⟨ofMode config' .generateOnly, translated.files⟩).2.pipeline.registry
            Registry.Registers (Event.ofStatechart c.document) (outcome classify w).1.isOk full ∧
            Registry.Registers (Event.ofStatechart c.document) (outcome classify w').1.isOk
              generated ∧
            ((outcome classify w).1.isOk → (outcome classify w').1.isOk →
              generated.names = full.names ∧ generated.events = full.events) := by
  obtain ⟨doc', hback, hevents⟩ := Canonical.exists_reparsed hparse hnames hquotes hc
  refine ⟨⟨doc', hback, hevents⟩, fun config files w hread hcan => ?_⟩
  obtain ⟨path, files', hfile, htranslates⟩ :=
    exists_written_of_canonicalize rfl hread hparse hc hcan
  obtain rfl : _ = w := congrArg Prod.snd ((htranslates .full rfl).symm.trans hcan)
  refine ⟨_, _, path, outcome_run_of_not_generates rfl (htranslates .translateOnly rfl), rfl, ?_⟩
  rintro config' rfl
  have hreread := outcome_canonicalize_of_not_translates
    (w := ⟨ofMode config' .generateOnly, files'⟩) rfl rfl hfile hback
  refine ⟨_, hreread, ?_⟩
  dsimp only
  rw [registry_run rfl hcan, registry_run rfl hreread]
  have hfull := registers_of_classify (w := ⟨{ ofMode config .full with
    canonical := some c.document, canonicalPath := some config'.input, declarations := some doc,
    stage := .canonicalized }, files'⟩) rfl rfl rfl rfl
  have hgenerated := registers_of_classify (w := ⟨{ ofMode config' .generateOnly with
    canonical := some doc', declarations := some doc', stage := .canonicalized }, files'⟩)
    rfl rfl rfl rfl
  rw [hevents] at hgenerated
  refine ⟨hfull, hgenerated, fun hok hok' => ⟨?_, ?_⟩⟩
  · rw [hfull.names_of_ended hok, hgenerated.names_of_ended hok']
  · rw [hfull.events_iff.2 (.inl hok), hgenerated.events_iff.2 (.inl hok')]

/-- A skill whose texts do not survive: a blank that is written as a reference, and two texts with
an instruction between them, which is dropped. -/
def spacedText : String :=
  "<s name=\"ASkill\">&#32;a<?p?>b<send event=\"b.f\"><param name=\"x\"/></send></s>"

def spacedSkill : Document :=
  ofForest none (.node (.element "s" [⟨"name", "ASkill"⟩])
    (.leaf (.text " a") ++ .leaf (.text "b") ++
      .node (.element "send" [⟨"event", "b.f"⟩]) (.leaf (.element "param" [⟨"name", "x"⟩])) .nil)
    .nil)

/-- A skill in a file of its own. -/
def skillFile (text : String) : FileTree where
  home := []
  nodes := [(["i"], .file text.toUTF8)]

def skillConfig (input : Path) : Config where
  input
  outputDir := "o"
  templateDir := "t"
  interfaceDir := none
  interfaceModel := none
  componentModel := none
  mode := .full
  dataModel := false

theorem eq_ok_of_isOk {w : Workspace} (h : (outcome canonicalize w).1.isOk) :
    outcome canonicalize w = (.ok (), (outcome canonicalize w).2) := by
  obtain ⟨_, hok⟩ := exists_of_isOk h
  exact Prod.ext hok rfl

/-- There are no templates, so both runs that generate fail, after they have registered the same. -/
theorem reread_registers_alike_spaced :
    Document.parse spacedText = .ok spacedSkill ∧
    ∃ c, (Canonical.canonicalize spacedSkill).result = .ok c ∧
      (∃ doc', Document.parse c.document.print = .ok doc' ∧
        Event.ofStatechart doc' = [Event.send "b.f" [("x", "")]]) ∧
      let files := (outcome run
        ⟨ofMode (skillConfig "i") .translateOnly, skillFile spacedText⟩).2.files
      let full := (outcome run
        ⟨ofMode (skillConfig "i") .full, skillFile spacedText⟩).2.pipeline.registry
      let generated := (outcome run
        ⟨ofMode (skillConfig "o/src/ASkillSM.scxml") .generateOnly, files⟩).2.pipeline.registry
      full.names = ["b.f"] ∧ generated.names = ["b.f"] ∧ generated.events = full.events := by
  have hparse : Document.parse spacedText = .ok spacedSkill := by decide +kernel
  have hquotes : ∀ d ∈ spacedSkill.declaration, ∀ p ∈ parts d, '"' ∉ p.2.toList := by
    intro d hd
    cases hd
  obtain ⟨c, hc, hevents⟩ : ∃ c, (Canonical.canonicalize spacedSkill).result = .ok c ∧
      Event.ofStatechart c.document = [Event.send "b.f" [("x", "")]] := by
    have hmade : ((Canonical.canonicalize spacedSkill).result.toOption.map fun c =>
        Event.ofStatechart c.document) = some [Event.send "b.f" [("x", "")]] := by decide +kernel
    cases hresult : (Canonical.canonicalize spacedSkill).result with
    | error e => simp [hresult, Except.toOption] at hmade
    | ok c => exact ⟨c, rfl, by simpa [hresult, Except.toOption] using hmade⟩
  obtain ⟨⟨doc', hback, hsame⟩, hruns⟩ :=
    reread_registers_alike hparse (by decide +kernel) hquotes hc
  -- The steps are evaluated one after the other, each from what the one before it left.
  have hevaluated :
      let made := outcome canonicalize ⟨ofMode (skillConfig "i") .full, skillFile spacedText⟩
      let translated := outcome run
        ⟨ofMode (skillConfig "i") .translateOnly, skillFile spacedText⟩
      let reread := outcome canonicalize
        ⟨ofMode (skillConfig "o/src/ASkillSM.scxml") .generateOnly, translated.2.files⟩
      made.1.isOk ∧ (outcome classify made.2).1.isOk ∧
        translated.1.toOption.bind Report.canonicalPath = some "o/src/ASkillSM.scxml" ∧
        (outcome classify reread.2).1.isOk := by decide +kernel
  obtain ⟨hmade, hclassified, hpath, hagain⟩ := hevaluated
  obtain ⟨report, translated, path, htranslate, hcanonicalPath, hreread⟩ :=
    hruns (skillConfig "i") (skillFile spacedText) (by decide +kernel) (eq_ok_of_isOk hmade)
  rw [htranslate] at hpath hagain
  cases hcanonicalPath.symm.trans hpath
  obtain ⟨w', hw', hfull, -, hregister⟩ := hreread (skillConfig "o/src/ASkillSM.scxml") rfl
  rw [hw'] at hagain
  obtain ⟨hn, he⟩ := hregister hclassified hagain
  have hnames := hfull.names_of_ended hclassified
  rw [hevents] at hnames
  refine ⟨hparse, c, hc, ⟨doc', hback, hsame.trans hevents⟩, hnames, ?_⟩
  rw [htranslate]
  exact ⟨hn.trans hnames, he⟩

/-- A skill that declares a service and never calls it. -/
def uncalledText : String :=
  "<s name=\"ASkill\"><ros_service_client service_name=\"/A/f\" type=\"t\"/>" ++
    "<send event=\"A.f\"/><send event=\"B.g\"/></s>"

def uncalledSkill : Document :=
  ofForest none (.node (.element "s" [⟨"name", "ASkill"⟩])
    (.leaf (.element "ros_service_client" [⟨"service_name", "/A/f"⟩, ⟨"type", "t"⟩]) ++
      .leaf (.element "send" [⟨"event", "A.f"⟩]) ++ .leaf (.element "send" [⟨"event", "B.g"⟩]))
    .nil)

/-- The event of a declared service that is never called cannot be classified, and the run that
translates and generates stops there. In the statechart that it wrote nothing is declared any more,
so the later run registers all events. -/
theorem generate_registers_more :
    Document.parse uncalledText = .ok uncalledSkill ∧
      (∀ x ∈ uncalledSkill.forest.preorder, Named x) ∧ uncalledSkill.declaration = none ∧
      (Canonical.canonicalize uncalledSkill).result.isOk ∧
      let files := (outcome run
        ⟨ofMode (skillConfig "i") .translateOnly, skillFile uncalledText⟩).2.files
      let full := (outcome run
        ⟨ofMode (skillConfig "i") .full, skillFile uncalledText⟩).2.pipeline.registry
      let generated := (outcome run
        ⟨ofMode (skillConfig "o/src/ASkillSM.scxml") .generateOnly, files⟩).2.pipeline.registry
      full.names = ["A.f"] ∧ generated.names = ["A.f", "B.g"] := by
  refine ⟨by decide +kernel, by decide +kernel, rfl, by decide +kernel, ?_⟩
  decide +kernel

end Pipeline

end SkillCompiler
