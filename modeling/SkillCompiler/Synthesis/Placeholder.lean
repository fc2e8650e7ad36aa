import SkillCompiler.Registry
import SkillCompiler.Skill.Names

/-!
# Placeholders

A placeholder is a name between dollar signs. A table of placeholders is applied one after another,
so a value may bring in a placeholder that comes later in the table.
-/

namespace SkillCompiler

/-- Placeholders with their values, in the order in which they are applied. -/
abbrev Placeholders := Assoc String

namespace Placeholders

/-- The package whose functions have a longer name in lower case. -/
def blackboardPackage : String := "blackboard_interfaces"

/-- Stands for a field. -/
def field : String := "$eventData.interfaceDataField$"

/-- Stands for the type of a field. -/
def fieldType : String := "$eventData.interfaceDataType$"

/-- Stands for a parameter. -/
def param : String := "$IT->FIRST$"

/-- Stands for the name of a message. -/
def messageName : String := "$eventData.messageNameSnakeCase$"

/-- Sets the value of a placeholder. -/
def set (placeholder value : String) (table : Placeholders) : Placeholders :=
  Assoc.insert placeholder value table

def ofList (entries : List (String × String)) : Placeholders :=
  entries.foldl (fun table (placeholder, value) => set placeholder value table) []

/-- The placeholders for the names of a skill. -/
def forSkill (names : SkillNames) : Placeholders :=
  ofList [("$className$", names.className), ("$projectName$", names.classSnakeCase),
    ("$SMName$", names.machine), ("$skillName$", names.skill),
    ("$skillTypeLC$", names.typeLowerCase), ("$skillType$", names.skillType),
    ("$dataModelClassName$", names.dataModelClass)]

/-- The placeholders for an event. -/
def forEvent (record : Record) : Placeholders :=
  let found := record.classification
  let component := (record.address.map Address.component).getD ""
  let function := (record.address.map Address.function).getD ""
  let snake := snakeCase function ++
    if found.interfaceName = blackboardPackage then "_blackboard" else ""
  ofList [("$eventData.event$", record.event.name), ("$eventData.componentName$", component),
    ("$eventData.functionName$", function), ("$eventData.functionNameSnakeCase$", snake),
    ("$eventData.serviceTypeName$", found.typeName),
    ("$eventData.serviceTypeNameSnakeCase$", snakeCase found.typeName),
    ("$eventData.nodeName$", "node" ++ function),
    ("$eventData.clientName$", "client" ++ function),
    ("$eventData.serverName$", "\"/" ++ component ++ "/" ++ function ++ "\""),
    ("$eventData.interfaceName$", found.interfaceName),
    ("$interfaceName$", found.interfaceName),
    ("$eventData.topicName$", found.topicName.getD ""), (messageName, found.typeName)]

/-- Puts the values in place of the placeholders, one placeholder after another. -/
def apply (table : Placeholders) (text : String) : String :=
  table.foldl (fun text (placeholder, value) => Text.replaceAll placeholder value text) text

end Placeholders

/-- The expression that reads a field of a response. -/
def responseAccessor (field fieldType : String) : String :=
  if fieldType = "string" then "response->" ++ field ++ ".c_str()" else "response->" ++ field

end SkillCompiler
