import TextTemplate.Bindings
import TextTemplate.Character.Blank
import TextTemplate.Character.Letter
import TextTemplate.Character.Place
import TextTemplate.Engine
import TextTemplate.Error
import TextTemplate.Error.Message
import TextTemplate.Expr.Basic
import TextTemplate.Expr.Eval
import TextTemplate.Expr.Flat
import TextTemplate.Expr.Parse
import TextTemplate.Expr.Token
import TextTemplate.File.Path
import TextTemplate.File.Tree
import TextTemplate.Json.Basic
import TextTemplate.Json.Error
import TextTemplate.Json.Number
import TextTemplate.Json.Read
import TextTemplate.Json.Record
import TextTemplate.Json.Template
import TextTemplate.Json.Text
import TextTemplate.Json.Value
import TextTemplate.Number.Binary
import TextTemplate.Number.Checked
import TextTemplate.Number.Decimal
import TextTemplate.Number.Numeral
import TextTemplate.Proofs.Attempt
import TextTemplate.Proofs.Course.Assignment
import TextTemplate.Proofs.Course.Composed
import TextTemplate.Proofs.Course.Congruence
import TextTemplate.Proofs.Course.Cut
import TextTemplate.Proofs.Course.Declared
import TextTemplate.Proofs.Course.Failure
import TextTemplate.Proofs.Course.Laws
import TextTemplate.Proofs.Course.Limit
import TextTemplate.Proofs.Course.Located
import TextTemplate.Proofs.Course.Lone
import TextTemplate.Proofs.Course.Output
import TextTemplate.Proofs.Course.Passes
import TextTemplate.Proofs.Course.Records
import TextTemplate.Proofs.Course.Rounds
import TextTemplate.Proofs.Course.Shadowing
import TextTemplate.Proofs.Course.Snapshot
import TextTemplate.Proofs.Course.Stacks
import TextTemplate.Proofs.Ending.Ends
import TextTemplate.Proofs.Ending.Level
import TextTemplate.Proofs.Ending.Render
import TextTemplate.Proofs.Ending.Unbounded
import TextTemplate.Proofs.Evaluation
import TextTemplate.Proofs.Expression.Blame
import TextTemplate.Proofs.Expression.Complete
import TextTemplate.Proofs.Expression.Footprint
import TextTemplate.Proofs.Expression.Grammar
import TextTemplate.Proofs.Expression.Height
import TextTemplate.Proofs.Expression.InDirective
import TextTemplate.Proofs.Expression.Later
import TextTemplate.Proofs.Expression.Level
import TextTemplate.Proofs.Expression.Lexing
import TextTemplate.Proofs.Expression.Malformed
import TextTemplate.Proofs.Expression.Matched
import TextTemplate.Proofs.Expression.Parts
import TextTemplate.Proofs.Expression.Print
import TextTemplate.Proofs.Expression.Prompt
import TextTemplate.Proofs.Expression.Quoted
import TextTemplate.Proofs.Expression.RoundTrip
import TextTemplate.Proofs.Expression.Sound
import TextTemplate.Proofs.Expression.Spell
import TextTemplate.Proofs.Expression.Viable
import TextTemplate.Proofs.Grammar.Acceptance
import TextTemplate.Proofs.Grammar.Arena
import TextTemplate.Proofs.Grammar.Assembly
import TextTemplate.Proofs.Grammar.Balanced
import TextTemplate.Proofs.Grammar.Customs
import TextTemplate.Proofs.Grammar.Derivation
import TextTemplate.Proofs.Grammar.Reading
import TextTemplate.Proofs.Grammar.Refusal
import TextTemplate.Proofs.Grammar.Role
import TextTemplate.Proofs.Grammar.Scan
import TextTemplate.Proofs.Grammar.Tree
import TextTemplate.Proofs.Json.ReadBack
import TextTemplate.Proofs.Likeness.Carried
import TextTemplate.Proofs.Likeness.Modes
import TextTemplate.Proofs.Likeness.Moved
import TextTemplate.Proofs.Likeness.Tree
import TextTemplate.Proofs.Number.Order
import TextTemplate.Proofs.Number.Rounding
import TextTemplate.Proofs.Script.Alike
import TextTemplate.Proofs.Script.Comment
import TextTemplate.Proofs.Script.Derivation
import TextTemplate.Proofs.Script.Includes
import TextTemplate.Proofs.Script.Parts
import TextTemplate.Proofs.Script.Run
import TextTemplate.Proofs.Script.Simulation
import TextTemplate.Proofs.Session.Cache
import TextTemplate.Proofs.Session.Chronicle
import TextTemplate.Proofs.Session.Comment
import TextTemplate.Proofs.Session.Engine
import TextTemplate.Proofs.Session.History
import TextTemplate.Proofs.Session.Inlining
import TextTemplate.Proofs.Session.Mode
import TextTemplate.Proofs.Session.Outcome
import TextTemplate.Proofs.Session.Pieces
import TextTemplate.Proofs.Session.Provenance
import TextTemplate.Proofs.Session.Recompilation
import TextTemplate.Proofs.Session.Restored
import TextTemplate.Proofs.Session.Texts
import TextTemplate.Proofs.Simulation.Basic
import TextTemplate.Proofs.Simulation.Caches
import TextTemplate.Proofs.Simulation.Directories
import TextTemplate.Proofs.Simulation.Eval
import TextTemplate.Proofs.Simulation.Level
import TextTemplate.Proofs.Simulation.Paths
import TextTemplate.Proofs.Simulation.State
import TextTemplate.Proofs.Simulation.Walk
import TextTemplate.Proofs.Steps
import TextTemplate.Proofs.Structure.Links
import TextTemplate.Proofs.Structure.Matching
import TextTemplate.Proofs.Structure.Walk
import TextTemplate.Proofs.Structure.WellLinked
import TextTemplate.Proofs.Text.Capture
import TextTemplate.Proofs.Text.Coverage
import TextTemplate.Proofs.Text.Cursor
import TextTemplate.Proofs.Text.Escape
import TextTemplate.Proofs.Text.Items
import TextTemplate.Proofs.Text.Nesting
import TextTemplate.Proofs.Text.Runs
import TextTemplate.Proofs.Text.Seams
import TextTemplate.Proofs.Text.Separators
import TextTemplate.Proofs.Text.Slices
import TextTemplate.Proofs.Text.Slots
import TextTemplate.Proofs.Text.Tiles
import TextTemplate.Proofs.Value.Arithmetic
import TextTemplate.Proofs.Value.Display
import TextTemplate.Proofs.Value.Equality
import TextTemplate.Proofs.Value.Order
import TextTemplate.Proofs.Value.Sequence
import TextTemplate.Render.Loop
import TextTemplate.Render.Renderer
import TextTemplate.Render.Run
import TextTemplate.Render.Sink
import TextTemplate.Render.State
import TextTemplate.Render.Store
import TextTemplate.Source.Bracket
import TextTemplate.Source.Directive
import TextTemplate.Source.Position
import TextTemplate.Source.Span
import TextTemplate.Template.Action
import TextTemplate.Template.Arena
import TextTemplate.Template.Assembly
import TextTemplate.Template.Basic
import TextTemplate.Template.Custom
import TextTemplate.Template.Program
import TextTemplate.Template.Role
import TextTemplate.Template.Slot
import TextTemplate.Value.Basic
import TextTemplate.Value.Operation
