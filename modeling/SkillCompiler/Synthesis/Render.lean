import SkillCompiler.Synthesis.Artifact
import SkillCompiler.Synthesis.Task

/-!
# Rendering artifacts

Every template takes the names of the skill and keeps or loses its optional regions; then the
fragments are cut out of all templates, and only after that is any event rendered. So a fragment may
stand in another template than the anchor it is put at. In the end no marker is left.
-/

namespace SkillCompiler

/-- Inserts text at an anchor, which is remarked if the anchor is not there. -/
def Template.insertNoted (t : Template) (anchor : Marker) (payload : String) : Logged Template :=
  ⟨(t.insertAfter anchor payload).1, t.insertNotes anchor⟩

def Template.toggleNoted (kept : Bool) (t : Template) (region : Region) : Logged Template :=
  ⟨t.toggle region kept, t.toggleNotes region kept⟩

/-- An artifact on its way: its template, and the dependencies that were put in. -/
structure Draft where
  template : Template
  listed : List (Anchor × String) := []
  deriving DecidableEq, Repr

namespace Draft

/-- Fills one list of a fragment and clears its anchor. -/
def fillList (t : Template) (list : Anchor × List String) : Logged Template := do
  let t ← list.2.foldlM (fun t item => t.insertNoted list.1.marker item) t
  return (t.clearAnchor list.1.marker).1

/-- A fragment with its lists filled and its placeholders replaced. -/
def compose (table : FragmentTable) (fragment : Fragment) (values : Placeholders)
    (lists : ItemLists) : Logged (Option String) := do
  match table.get? fragment with
  | none =>
    note (.debug .synthesis "fragment not present in any template" [("fragment", fragment.name)])
    return none
  | some text =>
    let t ← lists.foldlM fillList (Template.parse text)
    return some (values.apply t.render)

def insert (d : Draft) (anchor : Anchor) (text : String) : Logged Draft := do
  let t ← d.template.insertNoted anchor.marker text
  return { d with template := t }

/-- Carries out one task. -/
def perform (table : FragmentTable) (d : Draft) : Task → Logged Draft
  | .place fragment anchor values lists => do
    match ← compose table fragment values lists with
    | some text => d.insert anchor text
    | none => return d
  | .depend fragment anchor values package => do
    match ← compose table fragment values [] with
    | none => return d
    | some text =>
      if d.listed.contains (anchor, text) then
        note (.debug .synthesis "dependency already listed"
          [("interface", package), ("fragment", fragment.name)])
        return d
      { d with listed := d.listed ++ [(anchor, text)] }.insert anchor text
  | .leaveOut package => do
    note (.debug .synthesis "virtual interface, no package dependency" [("interface", package)])
    return d
  | .fill anchor item => d.insert anchor item

/-- Renders one event. -/
def render (table : FragmentTable) (d : Draft) (record : Record) : Logged Draft := do
  tell (Task.skipNotes table record)
  ((Task.ofRecord table record).getD []).foldlM (perform table) d

/-- Removes every anchor. -/
def clearAnchors (t : Template) : Template :=
  Anchor.all.foldl (fun t anchor => (t.clearAnchor anchor.marker).1) t

/-- Removes every anchor and then every other marker. -/
def close (t : Template) : Template :=
  let t := clearAnchors t
  t.markers.eraseDups.foldl (fun t m => (t.clearAnchor m).1) t

def closeNotes (kind : ArtifactKind) (t : Template) : List Entry :=
  (clearAnchors t).markers.eraseDups.map fun m =>
    .warn .synthesis "removing unknown marker" [("artifact", kind.name), ("marker", m.token)]

end Draft

namespace Artifacts

/-- The regions that a reserved event decides about. -/
def lifecycleRegions : ReservedEvent → List Region
  | .cmdTick => .named .block "TICK_CMD" :: Region.everyStyle "TICK"
  | .cmdHalt => .named .block "HALT_CMD" :: Region.everyStyle "HALT"
  | .tickResponse => Region.everyStyle "TICK_RESPONSE"
  | .haltResponse => Region.everyStyle "HALT_RESPONSE"

/-- The optional regions of a template, each with whether it is kept, in order. -/
def optionalRegions (names : SkillNames) (dataModel : Bool) (registry : Registry) :
    List (Region × Bool) :=
  (Region.everyStyle "ACTION").map (·, decide (names.kind = .action)) ++
    [Region.named .block "DATAMODEL", Region.named .hash "DATAMODEL"].map (·, dataModel) ++
    ReservedEvent.all.flatMap fun e =>
      (lifecycleRegions e).map (·, registry.containsReserved e)

/-- A template with the names of the skill and without the regions that it does not need. -/
def prepare (names : SkillNames) (dataModel : Bool) (registry : Registry) (text : String) :
    Logged Template :=
  (optionalRegions names dataModel registry).foldlM
    (fun t (region, kept) => t.toggleNoted kept region)
    (Template.parse ((Placeholders.forSkill names).apply text))

/-- Cuts the fragments out of all templates, in order. -/
def collectAll (table : FragmentTable) :
    List (ArtifactKind × Template) → Logged (FragmentTable × List (ArtifactKind × Template))
  | [] => return (table, [])
  | (kind, t) :: rest => do
    let (table, t) ← table.collect t
    let (table, rest) ← collectAll table rest
    return (table, (kind, t) :: rest)

/-- The text of an artifact, with all events rendered. -/
def renderOne (table : FragmentTable) (records : List Record) (kind : ArtifactKind)
    (t : Template) : Logged String := do
  let d ← records.foldlM (Draft.render table) { template := t }
  tell (Draft.closeNotes kind d.template)
  let events := records.countP fun record => (Task.ofRecord table record).isSome
  note (.debug .synthesis "rendered artifact"
    [("artifact", kind.name), ("events", toString events)])
  return (Draft.close d.template).render

/-- The artifacts of a skill. -/
def synthesize (templates : ArtifactTexts) (dataModel : Bool) (names : SkillNames)
    (registry : Registry) : Logged Artifacts := do
  let used := templates.filter fun (kind, _) => dataModel || !kind.isDataModel
  let prepared ← used.mapM fun (kind, text) => do
    return (kind, ← prepare names dataModel registry text)
  let (table, rest) ← collectAll [] prepared
  note (.debug .synthesis "collected fragments" [("fragments", toString table.length)])
  let texts ← rest.mapM fun (kind, t) => do
    return (kind, ← renderOne table registry.records kind t)
  note (.info .synthesis "synthesized skill" [("class", names.className),
    ("artifacts", toString texts.length), ("events", toString registry.size)])
  return ⟨names, texts⟩

end Artifacts

end SkillCompiler
