import ScriptSession.Artifact.Address
import ScriptSession.Artifact.Cache
import ScriptSession.Artifact.Coordinate
import ScriptSession.Artifact.Failure
import ScriptSession.Artifact.Fetch
import ScriptSession.Artifact.Manifest
import ScriptSession.Artifact.Repository
import ScriptSession.Artifact.Resolution
import ScriptSession.Artifact.Store
import ScriptSession.CommandLine.Command
import ScriptSession.CommandLine.Console
import ScriptSession.CommandLine.Execution
import ScriptSession.CommandLine.Grammar
import ScriptSession.CommandLine.Help
import ScriptSession.CommandLine.Listing
import ScriptSession.CommandLine.Program
import ScriptSession.Concurrency.Pool
import ScriptSession.Concurrency.Thread
import ScriptSession.Config.Decoding
import ScriptSession.Config.Layers
import ScriptSession.Config.Log
import ScriptSession.Config.Logging
import ScriptSession.Config.Settings
import ScriptSession.Context.Bindings
import ScriptSession.Context.Loading
import ScriptSession.Context.State
import ScriptSession.Decimal.Nearest
import ScriptSession.Decimal.Shortest
import ScriptSession.Evaluation.Fault
import ScriptSession.Evaluation.Routing
import ScriptSession.Evaluation.Slots
import ScriptSession.Files.Tree
import ScriptSession.Host
import ScriptSession.Json.Reader
import ScriptSession.Json.Value
import ScriptSession.Json.Writer
import ScriptSession.Main
import ScriptSession.Path
import ScriptSession.Proofs.Artifact.Caching
import ScriptSession.Proofs.Artifact.Catalog
import ScriptSession.Proofs.Artifact.Confinement
import ScriptSession.Proofs.Artifact.Consulting
import ScriptSession.Proofs.Artifact.Deferral
import ScriptSession.Proofs.Artifact.Forgetting
import ScriptSession.Proofs.Artifact.Grammar
import ScriptSession.Proofs.Artifact.Keeping
import ScriptSession.Proofs.Artifact.Layering
import ScriptSession.Proofs.Artifact.Neighbours
import ScriptSession.Proofs.Artifact.Placement
import ScriptSession.Proofs.Artifact.Recovery
import ScriptSession.Proofs.Artifact.Refusing
import ScriptSession.Proofs.Artifact.Resolving
import ScriptSession.Proofs.Artifact.Storing
import ScriptSession.Proofs.Artifact.Writers
import ScriptSession.Proofs.CommandLine.Conversing
import ScriptSession.Proofs.CommandLine.Prompting
import ScriptSession.Proofs.CommandLine.Testing
import ScriptSession.Proofs.Concurrency.Calls
import ScriptSession.Proofs.Concurrency.Courses
import ScriptSession.Proofs.Concurrency.Endings
import ScriptSession.Proofs.Concurrency.Interference
import ScriptSession.Proofs.Concurrency.Outcomes
import ScriptSession.Proofs.Concurrency.Pools
import ScriptSession.Proofs.Concurrency.Protocols
import ScriptSession.Proofs.Concurrency.Runs
import ScriptSession.Proofs.Concurrency.Strides
import ScriptSession.Proofs.Config.Checking
import ScriptSession.Proofs.Config.Layering
import ScriptSession.Proofs.Config.Merging
import ScriptSession.Proofs.Context.Changes
import ScriptSession.Proofs.Context.Coherence
import ScriptSession.Proofs.Context.Containment
import ScriptSession.Proofs.Context.Delivery
import ScriptSession.Proofs.Context.Extending
import ScriptSession.Proofs.Context.Interleaving
import ScriptSession.Proofs.Context.Merging
import ScriptSession.Proofs.Context.Starting
import ScriptSession.Proofs.Evaluation.Slots
import ScriptSession.Proofs.Files.Changes
import ScriptSession.Proofs.Files.Places
import ScriptSession.Proofs.Files.Spellings
import ScriptSession.Proofs.Files.Trees
import ScriptSession.Proofs.Json.RoundTrip
import ScriptSession.Proofs.Path.Components
import ScriptSession.Proofs.Path.Names
import ScriptSession.Proofs.Path.Order
import ScriptSession.Proofs.Script.Binding
import ScriptSession.Proofs.Script.Scopes
import ScriptSession.Proofs.Script.Stopping
import ScriptSession.Proofs.Script.Visible
import ScriptSession.Proofs.Session.Activity
import ScriptSession.Proofs.Session.Batches
import ScriptSession.Proofs.Session.Building
import ScriptSession.Proofs.Session.Cancelling
import ScriptSession.Proofs.Session.Capturing
import ScriptSession.Proofs.Session.Charges
import ScriptSession.Proofs.Session.Completion
import ScriptSession.Proofs.Session.Contention
import ScriptSession.Proofs.Session.Debouncing
import ScriptSession.Proofs.Session.Imports
import ScriptSession.Proofs.Session.Incidental
import ScriptSession.Proofs.Session.Joining
import ScriptSession.Proofs.Session.Journals
import ScriptSession.Proofs.Session.Libraries
import ScriptSession.Proofs.Session.Overlapping
import ScriptSession.Proofs.Session.Passing
import ScriptSession.Proofs.Session.Publishers
import ScriptSession.Proofs.Session.Publishing
import ScriptSession.Proofs.Session.Rebuilds
import ScriptSession.Proofs.Session.Removing
import ScriptSession.Proofs.Session.Renewals
import ScriptSession.Proofs.Session.Reporting
import ScriptSession.Proofs.Session.Resolving
import ScriptSession.Proofs.Session.Showing
import ScriptSession.Proofs.Session.Speaking
import ScriptSession.Proofs.Session.Threads
import ScriptSession.Proofs.Session.Trials
import ScriptSession.Proofs.Session.Twins
import ScriptSession.Proofs.Session.Undisturbed
import ScriptSession.Proofs.Session.Verdicts
import ScriptSession.Proofs.Session.Watching
import ScriptSession.Proofs.Task.Exclusive
import ScriptSession.Proofs.Task.Handles
import ScriptSession.Proofs.Task.Interrupts
import ScriptSession.Proofs.Task.Queue
import ScriptSession.Proofs.Task.Records
import ScriptSession.Proofs.Task.Refusals
import ScriptSession.Proofs.Task.Rest
import ScriptSession.Proofs.Task.Standing
import ScriptSession.Proofs.Task.Traffic
import ScriptSession.Proofs.Task.Turns
import ScriptSession.Proofs.Task.Waiting
import ScriptSession.Proofs.Text.Pieces
import ScriptSession.Report.Snapshot
import ScriptSession.Report.Testing
import ScriptSession.Report.Transcript
import ScriptSession.Script.Evaluate
import ScriptSession.Script.Fault
import ScriptSession.Script.Operator
import ScriptSession.Script.Parser
import ScriptSession.Script.Run
import ScriptSession.Script.Scope
import ScriptSession.Script.Simplify
import ScriptSession.Script.Syntax
import ScriptSession.Script.Token
import ScriptSession.Script.Value
import ScriptSession.Session.Building
import ScriptSession.Session.Failure
import ScriptSession.Session.Jobs
import ScriptSession.Session.Milestones
import ScriptSession.Session.Opening
import ScriptSession.Session.Operations
import ScriptSession.Session.Records
import ScriptSession.Session.Scripts
import ScriptSession.Session.Tasks
import ScriptSession.Session.Watching
import ScriptSession.Session.World
import ScriptSession.Task.Admission
import ScriptSession.Task.Control
import ScriptSession.Text.Blank
import ScriptSession.Text.Printable
import ScriptSession.Text.Quoted
import ScriptSession.Text.Table
import ScriptSession.Text.Utf8
import ScriptSession.Text.Width
import ScriptSession.Toml.Document
import ScriptSession.Toml.Lexical
import ScriptSession.Toml.Value
import ScriptSession.Web
