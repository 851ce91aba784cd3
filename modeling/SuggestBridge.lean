import SuggestBridge.Answer.Command
import SuggestBridge.Answer.Document
import SuggestBridge.Answer.Markup
import SuggestBridge.Answer.Row
import SuggestBridge.Answer.Rows
import SuggestBridge.Cli.Arguments
import SuggestBridge.Cli.Console
import SuggestBridge.Cli.Run
import SuggestBridge.Client.Basic
import SuggestBridge.Client.Rehearsal
import SuggestBridge.Config.Basic
import SuggestBridge.Config.Daemons
import SuggestBridge.Config.Issue
import SuggestBridge.Config.Load
import SuggestBridge.Config.Raw
import SuggestBridge.Config.Scalar
import SuggestBridge.Config.Validation
import SuggestBridge.Daemon.Process
import SuggestBridge.Daemon.Script
import SuggestBridge.Decimal.Binary64
import SuggestBridge.Decimal.Format
import SuggestBridge.Decimal.Nearest
import SuggestBridge.Decimal.Seconds
import SuggestBridge.Decimal.Shortest
import SuggestBridge.Failure
import SuggestBridge.Frame
import SuggestBridge.Json.Document
import SuggestBridge.Json.Literal
import SuggestBridge.Log
import SuggestBridge.Log.Directory
import SuggestBridge.Log.Journal
import SuggestBridge.Log.Record
import SuggestBridge.Log.Setup
import SuggestBridge.Log.Template
import SuggestBridge.Main
import SuggestBridge.Path.Basic
import SuggestBridge.Path.Normal
import SuggestBridge.Path.Project
import SuggestBridge.Peer.Basic
import SuggestBridge.Peer.Connection
import SuggestBridge.Peer.Exchange
import SuggestBridge.Sexp.Basic
import SuggestBridge.Sexp.Display
import SuggestBridge.Sexp.Printer
import SuggestBridge.Sexp.Reader
import SuggestBridge.Supervisor.Asking
import SuggestBridge.Supervisor.Basic
import SuggestBridge.Supervisor.Closing
import SuggestBridge.Supervisor.Routine
import SuggestBridge.Supervisor.Run
import SuggestBridge.Supervisor.Settings
import SuggestBridge.Supervisor.Slots
import SuggestBridge.Supervisor.Startup
import SuggestBridge.System.Environment
import SuggestBridge.System.FileTree
import SuggestBridge.System.Locations
import SuggestBridge.Task.Deadline
import SuggestBridge.Task.Kernel
import SuggestBridge.Task.Progress
import SuggestBridge.Task.Stream
import SuggestBridge.Task.Timers
import SuggestBridge.Text.Alphanumeric
import SuggestBridge.Text.Basic
import SuggestBridge.Text.Blank
import SuggestBridge.Text.Digit
import SuggestBridge.Text.Integer
import SuggestBridge.Text.Printable
import SuggestBridge.Text.Quoted
import SuggestBridge.Text.Ranges
import SuggestBridge.Text.Utf8
import SuggestBridge.Text.Words
import SuggestBridge.Time.Calendar
import SuggestBridge.Time.Moment
import SuggestBridge.Toml.Document
import SuggestBridge.Toml.Reader
import SuggestBridge.Tool.Executable
import SuggestBridge.Tool.Version
import SuggestBridge.Proofs.Frame.Reassembly
import SuggestBridge.Proofs.Frame.RoundTrip
import SuggestBridge.Proofs.Json.Literal
import SuggestBridge.Proofs.Peer.Attention
import SuggestBridge.Proofs.Peer.Calling
import SuggestBridge.Proofs.Peer.Conduct
import SuggestBridge.Proofs.Peer.Correlation
import SuggestBridge.Proofs.Peer.Corruption
import SuggestBridge.Proofs.Peer.Delivery
import SuggestBridge.Proofs.Peer.Events
import SuggestBridge.Proofs.Peer.Finality
import SuggestBridge.Proofs.Peer.Futures
import SuggestBridge.Proofs.Peer.Handling
import SuggestBridge.Proofs.Peer.Ledger
import SuggestBridge.Proofs.Peer.Listening
import SuggestBridge.Proofs.Peer.Moves
import SuggestBridge.Proofs.Peer.Order
import SuggestBridge.Proofs.Peer.Outward
import SuggestBridge.Proofs.Peer.Reception
import SuggestBridge.Proofs.Peer.Rest
import SuggestBridge.Proofs.Peer.Run
import SuggestBridge.Proofs.Peer.Sending
import SuggestBridge.Proofs.Peer.Work
import SuggestBridge.Proofs.Result
import SuggestBridge.Proofs.Sexp.Atom
import SuggestBridge.Proofs.Sexp.Cursor
import SuggestBridge.Proofs.Sexp.Descent
import SuggestBridge.Proofs.Sexp.Grammar
import SuggestBridge.Proofs.Sexp.Lexeme
import SuggestBridge.Proofs.Sexp.Reprint
import SuggestBridge.Proofs.Sexp.RoundTrip
import SuggestBridge.Proofs.Supervisor.Closings
import SuggestBridge.Proofs.Supervisor.Moves
import SuggestBridge.Proofs.Supervisor.Processes
import SuggestBridge.Proofs.Supervisor.Requests
import SuggestBridge.Proofs.Supervisor.Run
import SuggestBridge.Proofs.Supervisor.Sharing
import SuggestBridge.Proofs.Supervisor.Soundness
import SuggestBridge.Proofs.Supervisor.Startups
import SuggestBridge.Proofs.Supervisor.Stopping
import SuggestBridge.Proofs.Supervisor.Sweeping
import SuggestBridge.Proofs.Supervisor.Turn
import SuggestBridge.Proofs.Task.Acting
import SuggestBridge.Proofs.Task.Cancelling
import SuggestBridge.Proofs.Task.Deadlines
import SuggestBridge.Proofs.Task.Frames
import SuggestBridge.Proofs.Task.Kernel
import SuggestBridge.Proofs.Task.Relaying
import SuggestBridge.Proofs.Task.Taking
import SuggestBridge.Proofs.Task.Timers
import SuggestBridge.Proofs.Task.Turn
import SuggestBridge.Proofs.Task.Waking
import SuggestBridge.Proofs.Text.Utf8
import SuggestBridge.Proofs.Peer.Refusal
import SuggestBridge.Proofs.Peer.Abandonment
import SuggestBridge.Proofs.Supervisor.Belonging
import SuggestBridge.Proofs.Supervisor.Sparing
import SuggestBridge.Proofs.Supervisor.SparingTurns
import SuggestBridge.Proofs.Supervisor.Answering
import SuggestBridge.Proofs.Supervisor.Discarding
import SuggestBridge.Proofs.Supervisor.Calls
import SuggestBridge.Proofs.Peer.Rejection
import SuggestBridge.Proofs.Supervisor.Succession
import SuggestBridge.Proofs.Supervisor.Heeding
import SuggestBridge.Proofs.Supervisor.Withdrawal
import SuggestBridge.Proofs.Supervisor.Forsaking
import SuggestBridge.Proofs.Supervisor.GivingUp
import SuggestBridge.Proofs.Frame.Permanence
import SuggestBridge.Proofs.Sexp.Names
import SuggestBridge.Proofs.Sexp.Strings
import SuggestBridge.Proofs.Peer.Endurance
import SuggestBridge.Proofs.Text.Pieces
import SuggestBridge.Proofs.Path.Normal
import SuggestBridge.Proofs.Path.Keys
import SuggestBridge.Proofs.Path.Resolution
import SuggestBridge.Proofs.Answer.Rows
import SuggestBridge.Proofs.Answer.Markup
import SuggestBridge.Proofs.Config.Checked
import SuggestBridge.Proofs.Config.Stability
import SuggestBridge.Proofs.Config.Override
import SuggestBridge.Proofs.Toml.Reading
import SuggestBridge.Proofs.Config.Loading
import SuggestBridge.Proofs.Json.Rendering
import SuggestBridge.Proofs.Log.Directory
import SuggestBridge.Proofs.Log.Record
import SuggestBridge.Proofs.Log.Journal
import SuggestBridge.Proofs.Log.Pruning
import SuggestBridge.Proofs.Log.Housekeeping
import SuggestBridge.Proofs.Log.Reopening
import SuggestBridge.Proofs.Tool.Version
import SuggestBridge.Proofs.Task.Heap
import SuggestBridge.Proofs.Peer.Regard
import SuggestBridge.Proofs.Isolation.Owners
import SuggestBridge.Proofs.Isolation.Machine
import SuggestBridge.Proofs.Isolation.Kernel
import SuggestBridge.Proofs.Isolation.Acts
import SuggestBridge.Proofs.Isolation.Daemons
import SuggestBridge.Proofs.Isolation.Peers
import SuggestBridge.Proofs.Isolation.Startups
import SuggestBridge.Proofs.Isolation.Requests
import SuggestBridge.Proofs.Isolation.Steps
import SuggestBridge.Proofs.Isolation.Events
import SuggestBridge.Proofs.Isolation.Journeys
import SuggestBridge.Proofs.Isolation.Isolated
