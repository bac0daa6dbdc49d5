import ConversationFlow.Agent.Basic
import ConversationFlow.Batch.Dispatch
import ConversationFlow.Batch.Instance
import ConversationFlow.Calendar
import ConversationFlow.Checkout.Basic
import ConversationFlow.Checkout.Settings
import ConversationFlow.Checkout.Opening
import ConversationFlow.Checkout.Reference
import ConversationFlow.Checkout.Repository
import ConversationFlow.Checkpoint
import ConversationFlow.Command.Execution
import ConversationFlow.Command.Runner
import ConversationFlow.CommandLine.Program
import ConversationFlow.CommandLine.Reader
import ConversationFlow.CommandLine.Syntax
import ConversationFlow.Compile.Draft
import ConversationFlow.Compile.Error
import ConversationFlow.Compile.Instruction
import ConversationFlow.Compile.Written
import ConversationFlow.Config
import ConversationFlow.Context.Error
import ConversationFlow.Context.Filter
import ConversationFlow.Context.Reference
import ConversationFlow.Context.Tracker
import ConversationFlow.Conversation
import ConversationFlow.Decimal
import ConversationFlow.Detector.Basic
import ConversationFlow.Directive.Keyword
import ConversationFlow.Directive.Lexer
import ConversationFlow.Step.Written
import ConversationFlow.Failure
import ConversationFlow.Files.FileSystem
import ConversationFlow.Files.Glob
import ConversationFlow.Files.Path
import ConversationFlow.Help
import ConversationFlow.Run.Dialogue
import ConversationFlow.Json.Basic
import ConversationFlow.Json.Printer
import ConversationFlow.Json.Reader
import ConversationFlow.Main
import ConversationFlow.Prompt
import ConversationFlow.Proofs.Batch.Ending
import ConversationFlow.Proofs.Batch.Halting
import ConversationFlow.Proofs.Batch.Interleaving
import ConversationFlow.Proofs.Batch.Outputs
import ConversationFlow.Proofs.Batch.Safety
import ConversationFlow.Proofs.Batch.Sequential
import ConversationFlow.Proofs.Batch.Sharing
import ConversationFlow.Proofs.Batch.Standing
import ConversationFlow.Proofs.Checkpoints.Slugs
import ConversationFlow.Proofs.Checkpoints.Writing
import ConversationFlow.Proofs.Command.Words
import ConversationFlow.Proofs.Compilation.Balance
import ConversationFlow.Proofs.Compilation.Clauses
import ConversationFlow.Proofs.Compilation.Contents
import ConversationFlow.Proofs.Compilation.Cycles
import ConversationFlow.Proofs.Compilation.Declarations
import ConversationFlow.Proofs.Compilation.Drafts
import ConversationFlow.Proofs.Compilation.Flattening
import ConversationFlow.Proofs.Compilation.Instructions
import ConversationFlow.Proofs.Compilation.Lists
import ConversationFlow.Proofs.Compilation.Nesting
import ConversationFlow.Proofs.Compilation.Points
import ConversationFlow.Proofs.Context.Accounts
import ConversationFlow.Proofs.Context.Excerpts
import ConversationFlow.Proofs.Context.Grammar
import ConversationFlow.Proofs.Context.Literals
import ConversationFlow.Proofs.Context.Loading
import ConversationFlow.Proofs.Context.Validation
import ConversationFlow.Proofs.Detection.History
import ConversationFlow.Proofs.Detection.Phrases
import ConversationFlow.Proofs.Directive.Indentation
import ConversationFlow.Proofs.Directive.Layout
import ConversationFlow.Proofs.Directive.Lexing
import ConversationFlow.Proofs.Directive.Reading
import ConversationFlow.Proofs.Directive.Rereading
import ConversationFlow.Proofs.Directive.TextValue
import ConversationFlow.Proofs.Files.Bases
import ConversationFlow.Proofs.Files.Contents
import ConversationFlow.Proofs.Files.Globs
import ConversationFlow.Proofs.Json.Reading
import ConversationFlow.Proofs.Merging.Filling
import ConversationFlow.Proofs.Merging.Handling
import ConversationFlow.Proofs.Merging.Laws
import ConversationFlow.Proofs.Merging.Marks
import ConversationFlow.Proofs.Merging.Places
import ConversationFlow.Proofs.Merging.Points
import ConversationFlow.Proofs.Merging.Runs
import ConversationFlow.Proofs.Merging.Turn
import ConversationFlow.Proofs.Merging.Variables
import ConversationFlow.Proofs.Rendering.Handing
import ConversationFlow.Proofs.Rendering.Plans
import ConversationFlow.Proofs.Rendering.Prediction
import ConversationFlow.Proofs.Rendering.Substitution
import ConversationFlow.Proofs.Replaying.Checks
import ConversationFlow.Proofs.Replaying.References
import ConversationFlow.Proofs.Running.Beginnings
import ConversationFlow.Proofs.Running.Composing
import ConversationFlow.Proofs.Running.Courses
import ConversationFlow.Proofs.Running.Delivery
import ConversationFlow.Proofs.Running.Framing
import ConversationFlow.Proofs.Running.Gates
import ConversationFlow.Proofs.Running.Helping
import ConversationFlow.Proofs.Running.Histories
import ConversationFlow.Proofs.Running.Instructions
import ConversationFlow.Proofs.Running.Lifecycle
import ConversationFlow.Proofs.Running.Limits
import ConversationFlow.Proofs.Running.Policies
import ConversationFlow.Proofs.Running.Reaching
import ConversationFlow.Proofs.Running.Reports
import ConversationFlow.Proofs.Running.Resolving
import ConversationFlow.Proofs.Running.Retrying
import ConversationFlow.Proofs.Running.Sessions
import ConversationFlow.Proofs.Running.Starting
import ConversationFlow.Proofs.Running.TimeLimits
import ConversationFlow.Proofs.Running.Traits
import ConversationFlow.Proofs.Text.Lines
import ConversationFlow.Proofs.Text.Offsets
import ConversationFlow.Proofs.Value.Checks
import ConversationFlow.Proofs.Value.Numbers
import ConversationFlow.Proofs.Value.Options
import ConversationFlow.Proofs.Value.Pieces
import ConversationFlow.Proofs.Value.Quoting
import ConversationFlow.Proofs.Writing.Blocks
import ConversationFlow.Proofs.Writing.Compiling
import ConversationFlow.Proofs.Writing.Conversations
import ConversationFlow.Proofs.Writing.RoundTrip
import ConversationFlow.Proofs.Writing.Settings
import ConversationFlow.Proofs.Writing.Steps
import ConversationFlow.Proofs.Writing.Survival
import ConversationFlow.Rendered
import ConversationFlow.Report
import ConversationFlow.Run.Cycle
import ConversationFlow.Run.Options
import ConversationFlow.Run.Session
import ConversationFlow.Run.State
import ConversationFlow.Run.Step
import ConversationFlow.Run.World
import ConversationFlow.Settings
import ConversationFlow.Shell.Arithmetic
import ConversationFlow.Shell.Builtin.Control
import ConversationFlow.Shell.Builtin.Directory
import ConversationFlow.Shell.Builtin.Jobs
import ConversationFlow.Shell.Builtin.Limits
import ConversationFlow.Shell.Builtin.Names
import ConversationFlow.Shell.Builtin.Options
import ConversationFlow.Shell.Builtin.Table
import ConversationFlow.Shell.Builtin.Variables
import ConversationFlow.Shell.Condition
import ConversationFlow.Shell.Conversion
import ConversationFlow.Shell.Evaluation
import ConversationFlow.Shell.Expansion
import ConversationFlow.Shell.Fields
import ConversationFlow.Shell.Grammar
import ConversationFlow.Shell.Job
import ConversationFlow.Shell.Machine
import ConversationFlow.Shell.Options
import ConversationFlow.Shell.Pattern
import ConversationFlow.Shell.Printing
import ConversationFlow.Shell.Process
import ConversationFlow.Shell.Program
import ConversationFlow.Shell.Program.Lines
import ConversationFlow.Shell.Program.Environment
import ConversationFlow.Shell.Program.Files
import ConversationFlow.Shell.Program.Listing
import ConversationFlow.Shell.Program.Pause
import ConversationFlow.Shell.Program.Proposition
import ConversationFlow.Shell.Program.Sequence
import ConversationFlow.Shell.Program.Table
import ConversationFlow.Shell.Quoted
import ConversationFlow.Shell.Real
import ConversationFlow.Shell.Redirection
import ConversationFlow.Shell.Search
import ConversationFlow.Shell.Source
import ConversationFlow.Shell.Syntax
import ConversationFlow.Shell.Token
import ConversationFlow.Shell.Word
import ConversationFlow.Shell.World
import ConversationFlow.Step.Basic
import ConversationFlow.Step.Json
import ConversationFlow.Step.Merge
import ConversationFlow.Template
import ConversationFlow.Text.Basic
import ConversationFlow.Text.Case
import ConversationFlow.Text.Dictionary
import ConversationFlow.Text.Utf8
import ConversationFlow.Text.Word
import ConversationFlow.Timestamp
import ConversationFlow.Value.Duration
import ConversationFlow.Value.Basic
import ConversationFlow.Value.Scalar
import ConversationFlow.Value.Words
import ConversationFlow.Yaml.Basic
import ConversationFlow.Yaml.Token
import ConversationFlow.Yaml.Lexer
import ConversationFlow.Yaml.Node
import ConversationFlow.Yaml.Scalar
import ConversationFlow.Yaml.Tag
