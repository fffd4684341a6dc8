import NotebookKernels.CommandLine.Arguments
import NotebookKernels.CommandLine.Ask
import NotebookKernels.CommandLine.Conversation
import NotebookKernels.CommandLine.Plan
import NotebookKernels.CommandLine.Program
import NotebookKernels.CommandLine.Run
import NotebookKernels.CommandLine.Style
import NotebookKernels.Config
import NotebookKernels.Decimal.Digits
import NotebookKernels.Decimal.Shortest
import NotebookKernels.Directive.Block
import NotebookKernels.Directive.Expansion
import NotebookKernels.Directive.Line
import NotebookKernels.Directive.Literal
import NotebookKernels.Directive.Notice
import NotebookKernels.Directive.Submission
import NotebookKernels.Event.Message
import NotebookKernels.Event.Output
import NotebookKernels.Event.Stream
import NotebookKernels.Execution.Request
import NotebookKernels.Execution.Result
import NotebookKernels.Failure
import NotebookKernels.Identifier
import NotebookKernels.Json.Numeral
import NotebookKernels.Json.Printer
import NotebookKernels.Json.Reader
import NotebookKernels.Json.Record
import NotebookKernels.Json.Source
import NotebookKernels.Json.Value
import NotebookKernels.Kernel.Catalog
import NotebookKernels.Kernel.Record
import NotebookKernels.Kernel.Spec
import NotebookKernels.Listing.Inspector
import NotebookKernels.Listing.Variable
import NotebookKernels.Main
import NotebookKernels.Pool.Basic
import NotebookKernels.Pool.Lock
import NotebookKernels.Pool.Operation
import NotebookKernels.Pool.Stage
import NotebookKernels.Process.Connection
import NotebookKernels.Process.Files
import NotebookKernels.Process.Pipe
import NotebookKernels.Process.Program
import NotebookKernels.Process.Worker
import NotebookKernels.Proofs.CommandLine.Account
import NotebookKernels.Proofs.CommandLine.Dialogue
import NotebookKernels.Proofs.CommandLine.Script
import NotebookKernels.Proofs.Directive.Blocks
import NotebookKernels.Proofs.Directive.Comments
import NotebookKernels.Proofs.Directive.Embedding
import NotebookKernels.Proofs.Directive.Locality
import NotebookKernels.Proofs.Directive.Quoting
import NotebookKernels.Proofs.Directive.Refusals
import NotebookKernels.Proofs.Directive.Scanner
import NotebookKernels.Proofs.Directive.Suites
import NotebookKernels.Proofs.Event.Decoding
import NotebookKernels.Proofs.Execution.Result
import NotebookKernels.Proofs.Identifier
import NotebookKernels.Proofs.Json.Acceptance
import NotebookKernels.Proofs.Json.Numeral
import NotebookKernels.Proofs.Json.Reading
import NotebookKernels.Proofs.Json.Records
import NotebookKernels.Proofs.Json.Syntax
import NotebookKernels.Proofs.Listing.Parsing
import NotebookKernels.Proofs.Pool.Advance
import NotebookKernels.Proofs.Pool.Calls
import NotebookKernels.Proofs.Pool.Counts
import NotebookKernels.Proofs.Pool.Queues
import NotebookKernels.Proofs.Pool.Recency
import NotebookKernels.Proofs.Pool.Residue
import NotebookKernels.Proofs.Pool.Statuses
import NotebookKernels.Proofs.Pool.Views
import NotebookKernels.Proofs.Process.Attachment
import NotebookKernels.Proofs.Process.Lives
import NotebookKernels.Proofs.Process.Routing
import NotebookKernels.Proofs.Process.Stopping
import NotebookKernels.Proofs.Script.Cells
import NotebookKernels.Proofs.Script.Writing
import NotebookKernels.Proofs.Service.Capacity
import NotebookKernels.Proofs.Service.Clearing
import NotebookKernels.Proofs.Service.Counting
import NotebookKernels.Proofs.Service.Course
import NotebookKernels.Proofs.Service.Custody
import NotebookKernels.Proofs.Service.Deeds
import NotebookKernels.Proofs.Service.Eviction
import NotebookKernels.Proofs.Service.Exclusion
import NotebookKernels.Proofs.Service.Execution
import NotebookKernels.Proofs.Service.Failing
import NotebookKernels.Proofs.Service.Granting
import NotebookKernels.Proofs.Service.Handover
import NotebookKernels.Proofs.Service.History
import NotebookKernels.Proofs.Service.Listing
import NotebookKernels.Proofs.Service.Membership
import NotebookKernels.Proofs.Service.Numbering
import NotebookKernels.Proofs.Service.Reading
import NotebookKernels.Proofs.Service.Removal
import NotebookKernels.Proofs.Service.Replies
import NotebookKernels.Proofs.Service.Restarting
import NotebookKernels.Proofs.Service.Results
import NotebookKernels.Proofs.Service.Retention
import NotebookKernels.Proofs.Service.Room
import NotebookKernels.Proofs.Service.Scene
import NotebookKernels.Proofs.Service.Seats
import NotebookKernels.Proofs.Service.Sequential
import NotebookKernels.Proofs.Service.Sinks
import NotebookKernels.Proofs.Service.Sound
import NotebookKernels.Proofs.Service.Statuses
import NotebookKernels.Proofs.Service.Strays
import NotebookKernels.Proofs.Service.Strides
import NotebookKernels.Proofs.Service.Tallies
import NotebookKernels.Proofs.Service.Waiting
import NotebookKernels.Proofs.Simulation.Driving
import NotebookKernels.Proofs.Table
import NotebookKernels.Proofs.Text.Lines
import NotebookKernels.Proofs.Text.Utf8
import NotebookKernels.Proofs.Wire.Cuts
import NotebookKernels.Proofs.Wire.Frames
import NotebookKernels.Script.Cell
import NotebookKernels.Service.State
import NotebookKernels.Service.Step
import NotebookKernels.Simulation.Host
import NotebookKernels.Simulation.Player
import NotebookKernels.Simulation.Run
import NotebookKernels.Simulation.Scripted
import NotebookKernels.Simulation.World
import NotebookKernels.Span
import NotebookKernels.Table
import NotebookKernels.Text.Blank
import NotebookKernels.Text.Lines
import NotebookKernels.Text.Utf8
import NotebookKernels.Wire.Frame
import NotebookKernels.Wire.Message
import NotebookKernels.Wire.Shell
