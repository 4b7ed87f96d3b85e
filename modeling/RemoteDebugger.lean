import RemoteDebugger.Breakpoint.Basic
import RemoteDebugger.Breakpoint.Registry
import RemoteDebugger.Breakpoint.SkipCache
import RemoteDebugger.Config
import RemoteDebugger.ConfigToml
import RemoteDebugger.Decimal.Binary64
import RemoteDebugger.Decimal.Shortest
import RemoteDebugger.Error
import RemoteDebugger.Expression.Basic
import RemoteDebugger.Expression.Eval
import RemoteDebugger.Expression.Parser
import RemoteDebugger.Expression.Printer
import RemoteDebugger.Log.Directive
import RemoteDebugger.Log.Level
import RemoteDebugger.Log.Logger
import RemoteDebugger.Program.Frame
import RemoteDebugger.Program.Runtime
import RemoteDebugger.Program.Scope
import RemoteDebugger.Program.Signature
import RemoteDebugger.Session.Basic
import RemoteDebugger.Session.Command
import RemoteDebugger.Session.Connection
import RemoteDebugger.Session.Event
import RemoteDebugger.Session.Payload
import RemoteDebugger.Session.Request
import RemoteDebugger.Source.Files
import RemoteDebugger.Source.Filter
import RemoteDebugger.Source.Glob
import RemoteDebugger.Source.Map
import RemoteDebugger.Source.Path
import RemoteDebugger.Text.Blank
import RemoteDebugger.Text.Numeral
import RemoteDebugger.Text.Reader
import RemoteDebugger.Text.Regex
import RemoteDebugger.Text.Utf8
import RemoteDebugger.Thread.Basic
import RemoteDebugger.Thread.Queue
import RemoteDebugger.Toml.Basic
import RemoteDebugger.Toml.Reader
import RemoteDebugger.Value.Basic
import RemoteDebugger.Value.Equality
import RemoteDebugger.Value.Render
import RemoteDebugger.Value.Resolver
import RemoteDebugger.Wire.Command
import RemoteDebugger.Wire.Field
import RemoteDebugger.Wire.Message
import RemoteDebugger.Wire.Outbox
import RemoteDebugger.Wire.Percent
import RemoteDebugger.Xml
import RemoteDebugger.Proofs.Breakpoint.Listing
import RemoteDebugger.Proofs.Breakpoint.Memo
import RemoteDebugger.Proofs.Session.Account
import RemoteDebugger.Proofs.Session.Backlog
import RemoteDebugger.Proofs.Session.Decision
import RemoteDebugger.Proofs.Session.Effect
import RemoteDebugger.Proofs.Session.Grant
import RemoteDebugger.Proofs.Session.Interleaving
import RemoteDebugger.Proofs.Session.Shared
import RemoteDebugger.Proofs.Session.Shown
import RemoteDebugger.Proofs.Session.Serial
import RemoteDebugger.Proofs.Session.Closing
import RemoteDebugger.Proofs.Session.Narration
import RemoteDebugger.Proofs.Session.Notice
import RemoteDebugger.Proofs.Session.Pause
import RemoteDebugger.Proofs.Session.Place
import RemoteDebugger.Proofs.Session.Registered
import RemoteDebugger.Proofs.Session.Remarks
import RemoteDebugger.Proofs.Session.Run
import RemoteDebugger.Proofs.Session.Skipping
import RemoteDebugger.Proofs.Session.StepRun
import RemoteDebugger.Proofs.Session.Stepping
import RemoteDebugger.Proofs.Session.Stopping
import RemoteDebugger.Proofs.Session.Story
import RemoteDebugger.Proofs.Session.Termination
import RemoteDebugger.Proofs.Session.Transition
import RemoteDebugger.Proofs.Session.Turnover
import RemoteDebugger.Proofs.Session.Waiting
import RemoteDebugger.Proofs.Text.Ascii
import RemoteDebugger.Proofs.Text.Numeral
import RemoteDebugger.Proofs.Text.Utf8
import RemoteDebugger.Proofs.Text.Validity
import RemoteDebugger.Proofs.Thread.Delivery
import RemoteDebugger.Proofs.Thread.Queue
import RemoteDebugger.Proofs.Wire.Field
import RemoteDebugger.Proofs.Wire.Grammar
import RemoteDebugger.Proofs.Wire.Line
import RemoteDebugger.Proofs.Wire.Percent
import RemoteDebugger.Proofs.Wire.Transmission
import RemoteDebugger.Proofs.Session.Reading
import RemoteDebugger.Proofs.Expression.Lexeme
import RemoteDebugger.Proofs.Expression.Grammar
import RemoteDebugger.Proofs.Expression.Nesting
import RemoteDebugger.Proofs.Expression.RoundTrip
import RemoteDebugger.Proofs.Decimal.Rounding
import RemoteDebugger.Proofs.Session.LineBreakpoints
import RemoteDebugger.Proofs.Source.Inverse
import RemoteDebugger.Proofs.Decimal.Conversion
import RemoteDebugger.Proofs.Expression.Comparison
import RemoteDebugger.Proofs.Value.Reach
import RemoteDebugger.Proofs.Value.Equality
import RemoteDebugger.Proofs.Value.Rendering
import RemoteDebugger.Proofs.Value.Nesting
import RemoteDebugger.Proofs.Value.Lookup
import RemoteDebugger.Proofs.Expression.Evaluation
import RemoteDebugger.Proofs.Expression.Arithmetic
import RemoteDebugger.Proofs.Expression.Boolean
import RemoteDebugger.Proofs.Value.Bindings
import RemoteDebugger.Proofs.Value.Children
import RemoteDebugger.Proofs.Program.Closed
import RemoteDebugger.Proofs.Program.Slot
import RemoteDebugger.Proofs.Session.Assignment
import RemoteDebugger.Proofs.Source.Longest
import RemoteDebugger.Proofs.Expression.Scalar
import RemoteDebugger.Proofs.Expression.Scan
import RemoteDebugger.Proofs.Expression.Recursion
import RemoteDebugger.Proofs.Xml.Document
import RemoteDebugger.Proofs.Session.Payload
import RemoteDebugger.Proofs.Breakpoint.Exceptions
import RemoteDebugger.Proofs.Source.Glob
import RemoteDebugger.Proofs.Source.Project
import RemoteDebugger.Proofs.Session.Recording
import RemoteDebugger.Proofs.Session.ControlBlock
import RemoteDebugger.Proofs.Session.Wording
import RemoteDebugger.Proofs.Wire.Log
import RemoteDebugger.Proofs.Session.Logging
