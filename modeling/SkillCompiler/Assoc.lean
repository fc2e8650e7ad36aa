/-!
# Tables in insertion order

A table is a list of names with values in the order in which the names were first put in. Putting
in a value under a name that is there replaces the value and keeps its place.
-/

namespace SkillCompiler

/-- A table from names to values. -/
abbrev Assoc (α : Type) := List (String × α)

namespace Assoc

variable {α : Type}

def get? (table : Assoc α) (name : String) : Option α :=
  (table.find? fun entry => entry.1 = name).map Prod.snd

def contains (table : Assoc α) (name : String) : Bool :=
  table.any fun entry => entry.1 = name

def names (table : Assoc α) : List String :=
  table.map Prod.fst

/-- Puts in a value, in place if the name is there. -/
def insert (name : String) (value : α) : Assoc α → Assoc α
  | [] => [(name, value)]
  | entry :: rest =>
    if entry.1 = name then (name, value) :: rest else entry :: insert name value rest

/-- Puts in a value unless the name is there. -/
def insertNew (table : Assoc α) (name : String) (value : α) : Assoc α :=
  if table.contains name then table else table ++ [(name, value)]

end Assoc

end SkillCompiler
