import SkillCompiler.Canonical.Statechart
import SkillCompiler.Document.Parse
import SkillCompiler.Document.Print
import SkillCompiler.Document.Query
import SkillCompiler.Event.Basic
import SkillCompiler.Interface.Definition
import SkillCompiler.Interface.MessageType
import SkillCompiler.Interface.Model
import SkillCompiler.Log.Buffer
import SkillCompiler.Main
import SkillCompiler.Pipeline.Config
import SkillCompiler.Pipeline.Step
import SkillCompiler.Program
import SkillCompiler.Registry
import SkillCompiler.Skill.Names
import SkillCompiler.Synthesis.Render
import SkillCompiler.Template.Basic
import SkillCompiler.Text.Utf8
import SkillCompiler.Proofs.Document.Linked
import SkillCompiler.Proofs.Document.Tree
import SkillCompiler.Proofs.Document.Edits
import SkillCompiler.Proofs.Document.Traversal
import SkillCompiler.Proofs.Document.RoundTrip
import SkillCompiler.Proofs.Canonical.Rewrite
import SkillCompiler.Proofs.Document.Sweep
import SkillCompiler.Proofs.Canonical.Passes
import SkillCompiler.Proofs.Canonical.Refinement
import SkillCompiler.Proofs.Template.Outline
import SkillCompiler.Proofs.Template.Tokens
import SkillCompiler.Proofs.Synthesis.Assembly
import SkillCompiler.Proofs.Registry.Seen
import SkillCompiler.Proofs.Registry.Runs
import SkillCompiler.Proofs.Pipeline.Reread
import SkillCompiler.Proofs.Interface.Classification
import SkillCompiler.Proofs.Pipeline.Blame
import SkillCompiler.Proofs.Pipeline.Stage
import SkillCompiler.Proofs.Pipeline.Failure
import SkillCompiler.Proofs.Template.Literals
import SkillCompiler.Proofs.Synthesis.Closure
import SkillCompiler.Proofs.Interface.FieldTypes
import SkillCompiler.Proofs.Text.Replace
import SkillCompiler.Proofs.Synthesis.Reply
import SkillCompiler.Proofs.Synthesis.Order
import SkillCompiler.Proofs.File.Location
import SkillCompiler.Proofs.File.Outside
import SkillCompiler.Proofs.Pipeline.Confinement
import SkillCompiler.Proofs.Canonical.Failure
import SkillCompiler.Proofs.Synthesis.Endpoint
import SkillCompiler.Proofs.Template.Nesting
import SkillCompiler.Proofs.Synthesis.Regions
import SkillCompiler.Proofs.Synthesis.Lifecycle
import SkillCompiler.Proofs.Canonical.Survivors
import SkillCompiler.Proofs.Template.Sweep
import SkillCompiler.Proofs.Template.NormalForm
import SkillCompiler.Proofs.Synthesis.Fragments
import SkillCompiler.Proofs.Synthesis.Influence
import SkillCompiler.Proofs.Document.Undo
import SkillCompiler.Proofs.Document.Complete
import SkillCompiler.Proofs.Pipeline.Effect
import SkillCompiler.Proofs.Pipeline.Naming
import SkillCompiler.Proofs.Event.Address
import SkillCompiler.Proofs.Interface.Library
import SkillCompiler.Proofs.Canonical.Payload
