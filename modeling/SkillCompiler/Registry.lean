import SkillCompiler.Event.Basic
import SkillCompiler.Interface.Classification

/-!
# Event registries

A registry holds every event name once, in order of first occurrence. A name is put in before its
event is classified, so a name whose event cannot be classified stays, without a record, and is not
tried again. Reserved names and names without an address are not classified.
-/

namespace SkillCompiler

/-- An event as it was first seen, and what it is. -/
structure Record where
  event : Event
  /-- The address; reserved events and names without one have none. -/
  address : Option Address
  classification : Classification
  deriving DecidableEq, Repr

/-- A way to classify addresses, which may also change their form. -/
abbrev Classify := Address → Logged (Except CompileError Classification × Address)

/-- Names with their records. -/
structure Registry where
  entries : Assoc (Option Record)
  deriving DecidableEq, Repr

/-- What a round of registering events came to. -/
structure Registration where
  registered : Nat := 0
  duplicates : Nat := 0
  reserved : Nat := 0
  unclassified : List String := []
  deriving DecidableEq, Repr

namespace Registration

def isFullyClassified (r : Registration) : Bool := r.unclassified.isEmpty

/-- The number of events seen. -/
def total (r : Registration) : Nat := r.registered + r.duplicates

end Registration

namespace Registry

def empty : Registry := ⟨[]⟩

def contains (r : Registry) (name : String) : Bool := r.entries.contains name

def containsReserved (r : Registry) (e : ReservedEvent) : Bool := r.contains e.name

/-- The record of a name, if its event was classified. -/
def get? (r : Registry) (name : String) : Option Record := (r.entries.get? name).join

/-- The names, in order of first occurrence. -/
def names (r : Registry) : List String := r.entries.names

/-- The records, in the order of their names. -/
def records (r : Registry) : List Record := r.entries.filterMap Prod.snd

def size (r : Registry) : Nat := r.entries.length

def put (r : Registry) (name : String) (record : Option Record) : Registry :=
  ⟨r.entries.insert name record⟩

/-- Registers an event, unless its name is there. Says whether it was new. -/
def register (classify : Classify) (r : Registry) (e : Event) :
    Logged (Except CompileError Bool × Registry) := do
  if r.contains e.name then
    note (.debug .registry "event already processed" [("event", e.name)])
    return (.ok false, r)
  note (.debug .registry "processing event" [("event", e.name), ("kind", e.kind.tag)])
  let r := r.put e.name none
  if e.reserved?.isSome then
    return (.ok true, r.put e.name (some ⟨e, none, {}⟩))
  match Address.parse? e.name with
  | none =>
    note (.warn .registry "event name has no component/function address" [("event", e.name)])
    return (.ok true, r.put e.name (some ⟨e, none, {}⟩))
  | some a =>
    let (found, a) ← classify a
    match found with
    | .error error => return (.error error, r)
    | .ok found => return (.ok true, r.put e.name (some ⟨e, some a, found⟩))

/-- Counts an event that was registered, by the record it has now. -/
def tally (r : Registry) (e : Event) (isNew : Bool) (sum : Registration) : Registration :=
  if isNew then
    let sum := { sum with registered := sum.registered + 1 }
    match r.get? e.name with
    | some record =>
      if record.event.reserved?.isSome then { sum with reserved := sum.reserved + 1 }
      else if record.classification.isClassified then sum
      else { sum with unclassified := sum.unclassified ++ [e.name] }
    | none => sum
  else { sum with duplicates := sum.duplicates + 1 }

/-- Registers events in order, up to the first that cannot be classified. -/
def populateFrom (classify : Classify) (sum : Registration) (r : Registry) :
    List Event → Logged (Except CompileError Registration × Registry)
  | [] => return (.ok sum, r)
  | e :: rest => do
    let (outcome, r) ← r.register classify e
    match outcome with
    | .error error => return (.error error, r)
    | .ok isNew => populateFrom classify (r.tally e isNew sum) r rest

def populate (classify : Classify) (r : Registry) (events : List Event) :
    Logged (Except CompileError Registration × Registry) :=
  populateFrom classify {} r events

end Registry

end SkillCompiler
