import LineScript.Bindings
import LineScript.Command.Action
import LineScript.Command.Builtin
import LineScript.Command.Builtin.Arguments
import LineScript.Command.Builtin.Collection
import LineScript.Command.Builtin.Console
import LineScript.Command.Builtin.Flow
import LineScript.Command.Builtin.Keyboard
import LineScript.Command.Builtin.Number
import LineScript.Command.Builtin.Pointer
import LineScript.Command.Builtin.Screen
import LineScript.Command.Builtin.Text
import LineScript.Command.Builtin.Variable
import LineScript.Command.Fault
import LineScript.Command.Registry
import LineScript.Command.Schema
import LineScript.CommandLine
import LineScript.Device
import LineScript.Entropy
import LineScript.Files
import LineScript.Json
import LineScript.Kernel
import LineScript.Kernel.Await
import LineScript.Line.Context
import LineScript.Line.Evaluate
import LineScript.Line.Run
import LineScript.Main
import LineScript.Message
import LineScript.Message.Color
import LineScript.Message.Render
import LineScript.Number.Arithmetic
import LineScript.Number.Binary64
import LineScript.Number.Chain
import LineScript.Number.Duration
import LineScript.Number.Elementary
import LineScript.Number.Fixed
import LineScript.Number.Function
import LineScript.Number.Literal
import LineScript.Number.Reader
import LineScript.Number.Shortest
import LineScript.Number.Word32
import LineScript.Proofs.Command.Catalogue
import LineScript.Proofs.Command.Conduct
import LineScript.Proofs.Command.Draw
import LineScript.Proofs.Command.Index
import LineScript.Proofs.Command.Inquiry
import LineScript.Proofs.Command.Protocol
import LineScript.Proofs.Command.Resolve
import LineScript.Proofs.Command.Tail
import LineScript.Proofs.Command.Voice
import LineScript.Proofs.CommandLine.Argument
import LineScript.Proofs.Driver.Custody
import LineScript.Proofs.Driver.Silence
import LineScript.Proofs.Driver.Step
import LineScript.Proofs.Input.Advance
import LineScript.Proofs.Input.Desk
import LineScript.Proofs.Input.Service
import LineScript.Proofs.Input.Signal
import LineScript.Proofs.Input.Talk
import LineScript.Proofs.Input.Tended
import LineScript.Proofs.Input.Toggle
import LineScript.Proofs.Json.RoundTrip
import LineScript.Proofs.Kernel.Company
import LineScript.Proofs.Kernel.Delivery
import LineScript.Proofs.Kernel.Effect
import LineScript.Proofs.Kernel.Gathering
import LineScript.Proofs.Kernel.Isolation
import LineScript.Proofs.Kernel.Kinds
import LineScript.Proofs.Kernel.Ledger
import LineScript.Proofs.Kernel.Lineage
import LineScript.Proofs.Kernel.Motion
import LineScript.Proofs.Kernel.Oblivious
import LineScript.Proofs.Kernel.Rounds
import LineScript.Proofs.Kernel.Solitude
import LineScript.Proofs.Kernel.Turns
import LineScript.Proofs.Line.Account
import LineScript.Proofs.Line.Additions
import LineScript.Proofs.Line.Answer
import LineScript.Proofs.Line.Attendance
import LineScript.Proofs.Line.Bare
import LineScript.Proofs.Line.Capture
import LineScript.Proofs.Line.Carry
import LineScript.Proofs.Line.Course
import LineScript.Proofs.Line.Descent
import LineScript.Proofs.Line.Effects
import LineScript.Proofs.Line.Failure
import LineScript.Proofs.Line.Hop
import LineScript.Proofs.Line.Journal
import LineScript.Proofs.Line.Kinds
import LineScript.Proofs.Line.Oblivious
import LineScript.Proofs.Line.Provenance
import LineScript.Proofs.Line.Quiet
import LineScript.Proofs.Line.Reading
import LineScript.Proofs.Line.Rehearsal
import LineScript.Proofs.Line.Renewal
import LineScript.Proofs.Line.Report
import LineScript.Proofs.Line.Saga
import LineScript.Proofs.Line.Seclusion
import LineScript.Proofs.Line.Storage
import LineScript.Proofs.Message.Color
import LineScript.Proofs.Message.Paint
import LineScript.Proofs.Message.Wire
import LineScript.Proofs.Number.Chain
import LineScript.Proofs.Number.Integer
import LineScript.Proofs.Number.Nearest
import LineScript.Proofs.Number.Round
import LineScript.Proofs.Number.Word32
import LineScript.Proofs.Scheduler.Accounting
import LineScript.Proofs.Scheduler.History
import LineScript.Proofs.Scheduler.Operations
import LineScript.Proofs.Scheduler.Registration
import LineScript.Proofs.Script.Counter
import LineScript.Proofs.Script.Tick
import LineScript.Proofs.Session.Comment
import LineScript.Proofs.Store.Listing
import LineScript.Proofs.Store.Resaved
import LineScript.Proofs.Template.Escaping
import LineScript.Proofs.Template.Joining
import LineScript.Proofs.Template.Literal
import LineScript.Proofs.Template.Skeleton
import LineScript.Proofs.Text.LineEnding
import LineScript.Proofs.Text.Part
import LineScript.Proofs.Text.Substring
import LineScript.Proofs.Workspace.Bulletin
import LineScript.Proofs.Workspace.Overlap
import LineScript.Proofs.Workspace.Removal
import LineScript.Proofs.Workspace.Start
import LineScript.Rehearsal
import LineScript.Scope
import LineScript.Script.Instance
import LineScript.Script.Scheduler
import LineScript.Script.Tick
import LineScript.Session
import LineScript.Session.Directive
import LineScript.Store
import LineScript.Template
import LineScript.Text.Backspace
import LineScript.Text.Blank
import LineScript.Text.Cluster
import LineScript.Text.Cluster.Table
import LineScript.Text.Fields
import LineScript.Text.Lowercase
import LineScript.Text.Lowercase.Table
import LineScript.Text.Quoted
import LineScript.Text.Quoted.Table
import LineScript.Text.Ranges
import LineScript.Text.Replace
import LineScript.Value
import LineScript.Workspace
import LineScript.Workspace.Config
