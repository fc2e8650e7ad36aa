import SkillCompiler.Text.Quoted

/-!
# Log entries

Work that is worth a remark leaves entries behind, in order. `Logged` carries them beside a value,
and they are there also when the value is an error. `value_bind` says that the entries never decide
a value.
-/

namespace SkillCompiler

/-- How much an entry matters. -/
inductive Level where
  | error
  | warn
  | info
  | debug
  | trace
  deriving DecidableEq, Repr

namespace Level

def name : Level → String
  | error => "ERROR"
  | warn => "WARN"
  | info => "INFO"
  | debug => "DEBUG"
  | trace => "TRACE"

/-- Levels in order, the one that matters most first. -/
def rank : Level → Nat
  | error => 1
  | warn => 2
  | info => 3
  | debug => 4
  | trace => 5

end Level

/-- The part of the work that an entry comes from. -/
inductive Area where
  | program
  | document
  | canonical
  | event
  | interface
  | model
  | classification
  | registry
  | template
  | synthesis
  | fragment
  | artifact
  | pipeline
  deriving DecidableEq, Repr

namespace Area

/-- The name of an area. An area whose name goes on where another's ends lies within that one. -/
def name : Area → String
  | program => "model2code"
  | document => "model2code_core::document"
  | canonical => "model2code_skills::canonicalizer"
  | event => "model2code_skills::event"
  | interface => "model2code_skills::interface"
  | model => "model2code_skills::model"
  | classification => "model2code_skills::classifier"
  | registry => "model2code_skills::registry"
  | template => "model2code_skills::template"
  | synthesis => "model2code_skills::synthesizer"
  | fragment => "model2code_skills::synthesizer::fragment"
  | artifact => "model2code_skills::synthesizer::artifact"
  | pipeline => "model2code_skills::pipeline"

end Area

/-- A remark: where it comes from, what happened, and with what. -/
structure Entry where
  level : Level
  area : Area
  message : String
  fields : List (String × String)
  deriving DecidableEq, Repr

namespace Entry

/-- The entry as a line, without a time. -/
def line (e : Entry) : String :=
  e.fields.foldl (fun text (name, value) => text ++ " " ++ name ++ "=" ++ value)
    (e.level.name ++ " " ++ e.message)

/-- Whether an entry is kept at a level; without a level nothing is. -/
def isKept (least : Option Level) (e : Entry) : Bool :=
  least.any fun level => e.level.rank ≤ level.rank

/-- Whether an entry has a field. Its message is a field as well. -/
def hasField (e : Entry) (name : String) : Bool :=
  name = "message" || e.fields.any fun field => field.1 = name

def debug (area : Area) (message : String) (fields : List (String × String)) : Entry :=
  ⟨.debug, area, message, fields⟩

def info (area : Area) (message : String) (fields : List (String × String)) : Entry :=
  ⟨.info, area, message, fields⟩

def warn (area : Area) (message : String) (fields : List (String × String)) : Entry :=
  ⟨.warn, area, message, fields⟩

end Entry

/-- A value and the entries left on the way to it. -/
structure Logged (α : Type) where
  value : α
  log : List Entry

namespace Logged

variable {α β : Type}

instance : Monad Logged where
  pure a := ⟨a, []⟩
  bind x f := ⟨(f x.value).value, x.log ++ (f x.value).log⟩

@[simp] theorem value_pure (a : α) : (pure a : Logged α).value = a := rfl

@[simp] theorem value_bind (x : Logged α) (f : α → Logged β) :
    (x >>= f).value = (f x.value).value := rfl

@[simp] theorem log_bind (x : Logged α) (f : α → Logged β) :
    (x >>= f).log = x.log ++ (f x.value).log := rfl

end Logged

/-- Leaves entries behind. -/
def tell (entries : List Entry) : Logged Unit := ⟨(), entries⟩

/-- Leaves one entry behind. -/
def note (entry : Entry) : Logged Unit := tell [entry]

/-- Work that may fail and leaves entries behind in any case. -/
abbrev Attempt (ε α : Type) := ExceptT ε Logged α

namespace Attempt

variable {ε α β : Type}

/-- How the work ends. -/
def result (x : Attempt ε α) : Except ε α := x.run.value

/-- The entries left behind. -/
def log (x : Attempt ε α) : List Entry := x.run.log

def ofExcept (x : Except ε α) : Attempt ε α := ExceptT.mk ⟨x, []⟩

@[simp] theorem result_ofExcept (x : Except ε α) : (ofExcept x).result = x := rfl

@[simp] theorem result_pure (a : α) : (pure a : Attempt ε α).result = .ok a := rfl

@[simp] theorem result_bind (x : Attempt ε α) (f : α → Attempt ε β) :
    (x >>= f).result = x.result.bind fun a => (f a).result := by
  change (ExceptT.bindCont (m := Logged) f x.run.value).value = _
  unfold result
  cases x.run.value <;> rfl

end Attempt

end SkillCompiler
