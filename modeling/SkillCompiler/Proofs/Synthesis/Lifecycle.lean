import SkillCompiler.Proofs.Canonical.Survivors
import SkillCompiler.Proofs.Event.Tree
import SkillCompiler.Proofs.Registry.Stop
import SkillCompiler.Proofs.Synthesis.Regions

/-!
# Lifecycle commands

A skill is told to tick or to halt by two services. Their names are looked through for the word
`tick` first, the name of the component with them, so the halt service of a component with that word
in its name is taken for the tick service (`command?_serviceName_halt`). All other components keep
both commands: they are registered, and the regions of both are kept (`lifecycle_events`).
-/

namespace SkillCompiler

open Document

/-- The name of a service of a component. -/
def serviceName (component function : String) : String := "/" ++ component ++ "/" ++ function

theorem contains_serviceName {needle : String} (hne : needle ≠ "") (hslash : '/' ∉ needle.toList)
    (component function : String) :
    Text.contains needle (serviceName component function) ↔
      Text.contains needle component ∨ Text.contains needle function := by
  have hlist : (serviceName component function).toList =
      [] ++ '/' :: (component.toList ++ '/' :: function.toList) := by
    simp [serviceName]
  rw [Text.contains_iff, Text.contains_iff, Text.contains_iff, hlist]
  constructor
  · intro hin
    by_contra hnone
    rw [not_or] at hnone
    refine Text.not_infix_append_cons ?_ hslash
      (Text.not_infix_append_cons hnone.1 hslash hnone.2) hin
    simpa using hne
  · rintro (hin | hin)
    · exact hin.trans ⟨['/'], '/' :: function.toList, by simp⟩
    · exact hin.trans ⟨'/' :: (component.toList ++ ['/']), [], by simp⟩

namespace Rule

variable {rule : Rule} {tick halt : ReservedEvent}

theorem command?_serviceName_tick (h : rule.commands = some (tick, halt)) (component : String) :
    rule.command? (serviceName component "tick") = some tick := by
  have htick : Text.contains "tick" (serviceName component "tick") :=
    (contains_serviceName (by decide) (by decide) ..).2 (.inr (by decide))
  simp [command?, h, htick]

theorem command?_serviceName_halt (h : rule.commands = some (tick, halt)) (component : String) :
    rule.command? (serviceName component "halt") =
      some (if Text.contains "tick" component then tick else halt) := by
  -- The word is looked for in the whole name, and `halt` does not have it.
  have htick : Text.contains "tick" (serviceName component "halt") ↔
      Text.contains "tick" component := by
    rw [contains_serviceName (by decide) (by decide)]
    exact or_iff_left (by decide)
  have hhalt : Text.contains "halt" (serviceName component "halt") :=
    (contains_serviceName (by decide) (by decide) ..).2 (.inr (by decide))
  by_cases hword : Text.contains "tick" component
  · simp [command?, h, htick.2 hword, hword]
  · simp [command?, h, mt htick.1 hword, hhalt, hword]

end Rule

namespace Canonical

/-- Canonicalization makes one element of a node, which has a reserved event. -/
def Becomes (aliases : Assoc String) (content : Content) (target : String) (e : ReservedEvent) :
    Prop :=
  Yields aliases content target e.name

theorem becomes_of_command? {rule : Rule} (hrule : rule ∈ Rule.all) {as : List Attribute}
    {name : String} (hname : lookupAttribute "name" as = some name) {e : ReservedEvent}
    (hcommand : rule.command? name = some e) (aliases : Assoc String) :
    Becomes aliases (.element rule.source as) rule.target e := by
  have hrules : ∀ rule ∈ Rule.all, rule.commands.isSome → rule.split = none := by decide
  have hcommands : rule.commands.isSome := by
    cases hnone : rule.commands with
    | none => simp [Rule.command?, hnone] at hcommand
    | some pair => rfl
  have hevent : rule.event aliases name = e.name := by rw [Rule.event, hcommand]
  rw [Becomes, ← hevent]
  exact yields_of_mem hrule (hrules rule hrule hcommands) hname aliases

theorem transition_mem_ofTree {aliases : Assoc String} {below : Forest Content} {inside : Bool}
    {content : Content} {e : ReservedEvent} {target : String}
    (hsurvives : (inside, content) ∈ survivors false below)
    (hbecomes : Becomes aliases content "transition" e)
    (htarget : lookupAttribute "target" content.attributes = some target) :
    Event.transition e.name target ∈ Event.ofTree (rewriteBelow aliases false below) := by
  obtain ⟨as, himage, hevent, hothers⟩ := hbecomes inside
  have hmem : .element "transition" as ∈ (rewriteBelow aliases false below).preorder := by
    rw [preorder_rewriteBelow, List.mem_flatMap]
    exact ⟨_, hsurvives, by rw [himage]; exact List.mem_singleton_self _⟩
  rw [← Forest.map_fst_subtrees, List.mem_map] at hmem
  obtain ⟨n, hn, hlabel⟩ := hmem
  refine List.mem_append_left _ (List.mem_filterMap.2 ⟨n, hn, ?_⟩)
  have htarget' : lookupAttribute "target" as = some target := by
    rw [hothers "target" (by decide), htarget]
  rw [hlabel]
  simp [Event.transitionOf?, Content.tag?, Content.attributes, hevent, htarget']

/-- A handler of requests to a service that has a place in the statechart and names its target. -/
def Handles (doc : Document) (service : String) : Prop :=
  ∃ inside as, (inside, .element "ros_service_handle_request" as) ∈ survivors false doc.below ∧
    lookupAttribute "name" as = some service ∧ (lookupAttribute "target" as).isSome

theorem exists_rules_with_commands :
    (∃ rule ∈ Rule.all, rule.source = "ros_service_handle_request" ∧ rule.target = "transition" ∧
      rule.commands = some (.cmdTick, .cmdHalt)) ∧
    ∃ rule ∈ Rule.all, rule.source = "ros_service_send_response" ∧ rule.target = "send" ∧
      rule.commands = some (.tickResponse, .haltResponse) := by
  decide

/-- Requests and responses are treated alike: `choose` is what a name comes to for both. -/
theorem becomes_of_choose (aliases : Assoc String)
    (choose : ReservedEvent × ReservedEvent → ReservedEvent) {name : String}
    (hchoose : ∀ (rule : Rule) {tick halt : ReservedEvent},
      rule.commands = some (tick, halt) → rule.command? name = some (choose (tick, halt)))
    {as : List Attribute} (hname : lookupAttribute "name" as = some name) :
    Becomes aliases (.element "ros_service_handle_request" as) "transition"
        (choose (.cmdTick, .cmdHalt)) ∧
      Becomes aliases (.element "ros_service_send_response" as) "send"
        (choose (.tickResponse, .haltResponse)) := by
  obtain ⟨⟨request, hrequest, hs, ht, hc⟩, response, hresponse, hs', ht', hc'⟩ :=
    exists_rules_with_commands
  rw [← hs, ← ht, ← hs', ← ht']
  exact ⟨becomes_of_command? hrequest hname (hchoose request hc) aliases,
    becomes_of_command? hresponse hname (hchoose response hc') aliases⟩

theorem becomes_tick (aliases : Assoc String) {as : List Attribute} {component : String}
    (hname : lookupAttribute "name" as = some (serviceName component "tick")) :
    Becomes aliases (.element "ros_service_handle_request" as) "transition" .cmdTick ∧
      Becomes aliases (.element "ros_service_send_response" as) "send" .tickResponse :=
  becomes_of_choose aliases Prod.fst
    (fun _ _ _ hcommands => Rule.command?_serviceName_tick hcommands component) hname

theorem becomes_halt (aliases : Assoc String) {as : List Attribute} {component : String}
    (hname : lookupAttribute "name" as = some (serviceName component "halt")) :
    Becomes aliases (.element "ros_service_handle_request" as) "transition"
        (if Text.contains "tick" component then .cmdTick else .cmdHalt) ∧
      Becomes aliases (.element "ros_service_send_response" as) "send"
        (if Text.contains "tick" component then .tickResponse else .haltResponse) :=
  becomes_of_choose aliases (fun pair => if Text.contains "tick" component then pair.1 else pair.2)
    (fun _ _ _ hcommands => Rule.command?_serviceName_halt hcommands component) hname

/-- A lifecycle command that a skill handles is registered. -/
theorem containsReserved_of_handles {doc : Document} {c : Canonical}
    (hevents : Event.ofStatechart c.document =
      Event.ofTree (rewriteBelow (aliases doc) false doc.below))
    {service : String} (hhandles : Handles doc service) {e : ReservedEvent}
    (hbecomes : ∀ as, lookupAttribute "name" as = some service →
      Becomes (aliases doc) (.element "ros_service_handle_request" as) "transition" e)
    {classify : Classify} {r r' : Registry} {report : Registration}
    (hround : (r.populate classify (Event.ofStatechart c.document)).value = (.ok report, r')) :
    r'.containsReserved e := by
  obtain ⟨inside, as, hsurvives, hname, htarget⟩ := hhandles
  obtain ⟨target, htarget⟩ := Option.isSome_iff_exists.1 htarget
  have hmem := transition_mem_ofTree hsurvives (hbecomes as hname) htarget
  rw [← hevents] at hmem
  rw [Registry.containsReserved, Registry.contains_eq, decide_eq_true_iff,
    Registry.registry_of_populateFrom hround, Registry.mem_names_foldl_learn]
  exact .inr (List.mem_map.2 ⟨_, hmem, rfl⟩)

/-- The tick service of a component becomes the tick command, and its halt service becomes the halt
command unless the component has the word `tick` in its name; the same holds of the responses. So a
skill that handles both services of a component without that word registers both commands and keeps
the regions of the halt command. -/
theorem lifecycle_events {text : String} {doc : Document} {c : Canonical}
    (hparse : Document.parse text = .ok doc) (hc : (canonicalize doc).result = .ok c) :
    (c.document.below.preorder =
      (survivors false doc.below).flatMap fun s => image (aliases doc) s.1 s.2) ∧
    ∀ component : String,
      (∀ as, lookupAttribute "name" as = some (serviceName component "tick") →
        Becomes (aliases doc) (.element "ros_service_handle_request" as) "transition" .cmdTick ∧
        Becomes (aliases doc) (.element "ros_service_send_response" as) "send" .tickResponse) ∧
      (∀ as, lookupAttribute "name" as = some (serviceName component "halt") →
        Becomes (aliases doc) (.element "ros_service_handle_request" as) "transition"
          (if Text.contains "tick" component then .cmdTick else .cmdHalt) ∧
        Becomes (aliases doc) (.element "ros_service_send_response" as) "send"
          (if Text.contains "tick" component then .tickResponse else .haltResponse)) ∧
      (¬ Text.contains "tick" component →
        Handles doc (serviceName component "tick") → Handles doc (serviceName component "halt") →
          ∀ (classify : Classify) (r r' : Registry) (report : Registration),
            (r.populate classify (Event.ofStatechart c.document)).value = (.ok report, r') →
              r'.containsReserved .cmdTick ∧ r'.containsReserved .cmdHalt ∧
                ∀ (names : SkillNames) (dataModel : Bool),
                  ∀ region ∈ Artifacts.lifecycleRegions .cmdHalt, ∀ kept,
                    (region, kept) ∈ Artifacts.optionalRegions names dataModel r' ↔
                      kept = true) := by
  obtain ⟨root, hchart⟩ := exists_holds_of_parse hparse hc
  have hevents := Event.ofStatechart_eq hchart
  refine ⟨preorder_below_of_parse hparse hc, fun component =>
    ⟨fun as => becomes_tick (aliases doc), fun as => becomes_halt (aliases doc), ?_⟩⟩
  intro hword htick hhalt classify r r' report hround
  have hcmdTick := containsReserved_of_handles hevents htick
    (fun as hname => (becomes_tick (aliases doc) hname).1) hround
  have hcmdHalt := containsReserved_of_handles hevents hhalt
    (fun as hname => (becomes_halt (aliases doc) hname).1) hround
  rw [if_neg hword] at hcmdHalt
  refine ⟨hcmdTick, hcmdHalt, fun names dataModel region hregion kept => ?_⟩
  rw [Artifacts.mem_optionalRegions hregion, hcmdHalt]

/-- A skill that handles both services. -/
def lifecycleSkill : Document :=
  ofForest none (.node (.element "s" [⟨"name", "XSkill"⟩])
    (.leaf (.element "ros_service_handle_request" [⟨"name", "/X/tick"⟩, ⟨"target", "a"⟩]) ++
    .leaf (.element "ros_service_handle_request" [⟨"name", "/X/halt"⟩, ⟨"target", "b"⟩])) .nil)

def lifecycleChart : Canonical :=
  ⟨ofForest none (.node (.element "s" [⟨"name", "XSkillCondition"⟩, ⟨"xmlns", namespaceName⟩])
    (.leaf (.element "transition" [⟨"event", "CMD_TICK"⟩, ⟨"target", "a"⟩]) ++
    .leaf (.element "transition" [⟨"event", "CMD_HALT"⟩, ⟨"target", "b"⟩])) .nil),
    ⟨"XSkillCondition", "X", "Condition"⟩⟩

def lifecycleRegistry : Registry :=
  ⟨[("CMD_TICK", some ⟨.transition "CMD_TICK" "a", none, {}⟩),
    ("CMD_HALT", some ⟨.transition "CMD_HALT" "b", none, {}⟩)]⟩

/-- A classifier that knows nothing. -/
def unclassified : Classify := fun a => return (.ok {}, a)

theorem lifecycle_events_halting :
    Document.parse ("<s name=\"XSkill\">" ++
      "<ros_service_handle_request name=\"/X/tick\" target=\"a\"/>" ++
      "<ros_service_handle_request name=\"/X/halt\" target=\"b\"/></s>") = .ok lifecycleSkill ∧
    (canonicalize lifecycleSkill).result = .ok lifecycleChart ∧
    (Registry.empty.populate unclassified
      (Event.ofStatechart lifecycleChart.document)).value =
        (.ok { registered := 2, reserved := 2 }, lifecycleRegistry) ∧
    lifecycleRegistry.containsReserved .cmdTick ∧ lifecycleRegistry.containsReserved .cmdHalt ∧
    ∀ region ∈ Artifacts.lifecycleRegions .cmdHalt,
      (region, true) ∈ Artifacts.optionalRegions lifecycleChart.names false lifecycleRegistry ∧
      (region, false) ∉
        Artifacts.optionalRegions lifecycleChart.names false lifecycleRegistry := by
  have hparse : Document.parse ("<s name=\"XSkill\">" ++
      "<ros_service_handle_request name=\"/X/tick\" target=\"a\"/>" ++
      "<ros_service_handle_request name=\"/X/halt\" target=\"b\"/></s>") =
        .ok lifecycleSkill := by
    decide +kernel
  have hc : (canonicalize lifecycleSkill).result = .ok lifecycleChart := by decide +kernel
  have hround : (Registry.empty.populate unclassified
      (Event.ofStatechart lifecycleChart.document)).value =
        (.ok { registered := 2, reserved := 2 }, lifecycleRegistry) := by
    decide +kernel
  have htick : Handles lifecycleSkill (serviceName "X" "tick") :=
    ⟨false, [⟨"name", "/X/tick"⟩, ⟨"target", "a"⟩], by decide +kernel, by decide +kernel, rfl⟩
  have hhalt : Handles lifecycleSkill (serviceName "X" "halt") :=
    ⟨false, [⟨"name", "/X/halt"⟩, ⟨"target", "b"⟩], by decide +kernel, by decide +kernel, rfl⟩
  obtain ⟨hcmdTick, hcmdHalt, hregions⟩ :=
    ((lifecycle_events hparse hc).2 "X").2.2 (by decide) htick hhalt _ _ _ _ hround
  refine ⟨hparse, hc, hround, hcmdTick, hcmdHalt, fun region hregion => ?_⟩
  have hkept := hregions lifecycleChart.names false region hregion
  exact ⟨(hkept true).2 rfl, fun hmem => Bool.false_ne_true ((hkept false).1 hmem)⟩

/-- An action that handles both services, of a component with the word `tick` in its name. -/
def stickSkill : Document :=
  ofForest none (.node (.element "s" [⟨"name", "StickSkill"⟩])
    (.leaf (.element "ros_service_server" [⟨"type", "bt_interfaces/HaltAction"⟩]) ++
    .leaf (.element "ros_service_handle_request"
      [⟨"name", "/StickSkill/tick"⟩, ⟨"target", "a"⟩]) ++
    .leaf (.element "ros_service_handle_request"
      [⟨"name", "/StickSkill/halt"⟩, ⟨"target", "b"⟩])) .nil)

/-- No halt command is registered, and the region of the halt command is deleted. -/
theorem halt_taken_for_tick :
    Document.parse ("<s name=\"StickSkill\">" ++
      "<ros_service_server type=\"bt_interfaces/HaltAction\"/>" ++
      "<ros_service_handle_request name=\"/StickSkill/tick\" target=\"a\"/>" ++
      "<ros_service_handle_request name=\"/StickSkill/halt\" target=\"b\"/></s>") =
        .ok stickSkill ∧
    ∃ c r, (canonicalize stickSkill).result = .ok c ∧ c.names.kind = .action ∧
      Event.ofStatechart c.document =
        [.transition "CMD_TICK" "a", .transition "CMD_TICK" "b"] ∧
      (Registry.empty.populate unclassified (Event.ofStatechart c.document)).value =
        (.ok { registered := 1, duplicates := 1, reserved := 1 }, r) ∧
      r.containsReserved .cmdHalt = false ∧
      (Artifacts.prepare c.names false r "/*HALT*/h/*END_HALT*/").value.render = "" := by
  refine ⟨by decide +kernel, ?_⟩
  have hchart : (canonicalize stickSkill).result.map
      (fun c => (c.names, Event.ofStatechart c.document)) =
        .ok (⟨"StickSkillAction", "Stick", "Action"⟩,
          [.transition "CMD_TICK" "a", .transition "CMD_TICK" "b"]) := by
    decide +kernel
  cases hc : (canonicalize stickSkill).result with
  | error e =>
    rw [hc] at hchart
    cases hchart
  | ok c =>
    rw [hc] at hchart
    obtain ⟨hnames, hevents⟩ := Prod.mk.inj (Except.ok.inj hchart)
    refine ⟨c, ⟨[("CMD_TICK", some ⟨.transition "CMD_TICK" "a", none, {}⟩)]⟩, rfl, ?_, hevents, ?_,
      by decide, ?_⟩
    · rw [hnames]
      rfl
    · rw [hevents]
      decide +kernel
    · rw [hnames]
      decide +kernel

end Canonical

end SkillCompiler
