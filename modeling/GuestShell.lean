import GuestShell.Archive.Checksum
import GuestShell.Archive.Gzip
import GuestShell.Archive.Inflate
import GuestShell.Archive.Tar
import GuestShell.Bytes
import GuestShell.Catalog.Basic
import GuestShell.Catalog.Calls
import GuestShell.Catalog.Error
import GuestShell.Catalog.FixedSource
import GuestShell.Catalog.Overlap
import GuestShell.Catalog.Package
import GuestShell.Catalog.PackageRegistry
import GuestShell.CommandLine
import GuestShell.Config
import GuestShell.DevServer
import GuestShell.Diagnostic
import GuestShell.Dict
import GuestShell.Disk.Error
import GuestShell.Engine.Error
import GuestShell.Engine.Host
import GuestShell.Engine.Memory
import GuestShell.Engine.Value
import GuestShell.FileTree.Basic
import GuestShell.FileTree.Error
import GuestShell.FileTree.Path
import GuestShell.FileTree.Snapshot
import GuestShell.Guest.Execution
import GuestShell.Guest.Image
import GuestShell.Guest.Machine
import GuestShell.Guest.Program
import GuestShell.Guest.ProgramText
import GuestShell.Http.Address
import GuestShell.Http.Request
import GuestShell.Json.Access
import GuestShell.Json.Parser
import GuestShell.Json.Printer
import GuestShell.Json.Record
import GuestShell.Json.Value
import GuestShell.Main
import GuestShell.Module.Info
import GuestShell.Module.Leb128
import GuestShell.Pipeline.Basic
import GuestShell.Pipeline.Commands
import GuestShell.Pipeline.OfLine
import GuestShell.Pipeline.Token
import GuestShell.Proofs.Catalog.Cache
import GuestShell.Proofs.Catalog.Containment
import GuestShell.Proofs.Catalog.History
import GuestShell.Proofs.Catalog.Ingestion
import GuestShell.Proofs.Catalog.Links
import GuestShell.Proofs.Catalog.Overlap
import GuestShell.Proofs.Catalog.Pairing
import GuestShell.Proofs.Catalog.Runs
import GuestShell.Proofs.DevServer.BelowRoot
import GuestShell.Proofs.Dict.Bindings
import GuestShell.Proofs.Engine.Memory
import GuestShell.Proofs.FileTree.Checked
import GuestShell.Proofs.FileTree.Failures
import GuestShell.Proofs.FileTree.Frames
import GuestShell.Proofs.FileTree.Identity
import GuestShell.Proofs.FileTree.LastWriter
import GuestShell.Proofs.FileTree.Limits
import GuestShell.Proofs.FileTree.Loaded
import GuestShell.Proofs.FileTree.Operations
import GuestShell.Proofs.FileTree.Outcomes
import GuestShell.Proofs.FileTree.Places
import GuestShell.Proofs.FileTree.Reload
import GuestShell.Proofs.FileTree.Rename
import GuestShell.Proofs.FileTree.Resolution
import GuestShell.Proofs.FileTree.Scans
import GuestShell.Proofs.FileTree.StaleHandles
import GuestShell.Proofs.FileTree.Texts
import GuestShell.Proofs.FileTree.Transplant
import GuestShell.Proofs.FileTree.Walks
import GuestShell.Proofs.FileTree.WellFormed
import GuestShell.Proofs.Guest.Deadline
import GuestShell.Proofs.Guest.Epochs
import GuestShell.Proofs.Json.Leaves
import GuestShell.Proofs.Json.ReadBack
import GuestShell.Proofs.Module.Numbers
import GuestShell.Proofs.Module.Sections
import GuestShell.Proofs.Module.Truncated
import GuestShell.Proofs.Module.Written
import GuestShell.Proofs.Pipeline.Completion
import GuestShell.Proofs.Pipeline.NextToken
import GuestShell.Proofs.Pipeline.Outline
import GuestShell.Proofs.Pipeline.ReadBack
import GuestShell.Proofs.Pipeline.Spelling
import GuestShell.Proofs.Run.Captured
import GuestShell.Proofs.Run.CarriedFiles
import GuestShell.Proofs.Run.Course
import GuestShell.Proofs.Run.Hearing
import GuestShell.Proofs.Run.Strategy
import GuestShell.Proofs.Sandbox.Arguments
import GuestShell.Proofs.Sandbox.Beginning
import GuestShell.Proofs.Sandbox.Breakdown
import GuestShell.Proofs.Sandbox.Checked
import GuestShell.Proofs.Sandbox.Discreet
import GuestShell.Proofs.Sandbox.Keeps
import GuestShell.Proofs.Sandbox.LibcFailures
import GuestShell.Proofs.Sandbox.LibcFiles
import GuestShell.Proofs.Sandbox.ListingLines
import GuestShell.Proofs.Sandbox.Listings
import GuestShell.Proofs.Sandbox.LiveDescriptors
import GuestShell.Proofs.Sandbox.Matched
import GuestShell.Proofs.Sandbox.Outputs
import GuestShell.Proofs.Sandbox.Overflow
import GuestShell.Proofs.Sandbox.PosixFailures
import GuestShell.Proofs.Sandbox.PosixFiles
import GuestShell.Proofs.Sandbox.Reserved
import GuestShell.Proofs.Sandbox.Results
import GuestShell.Proofs.Sandbox.Runs
import GuestShell.Proofs.Sandbox.ScatteredReads
import GuestShell.Proofs.Sandbox.StdinDelivery
import GuestShell.Proofs.Session.Agreement
import GuestShell.Proofs.Session.Attending
import GuestShell.Proofs.Session.Cancellation
import GuestShell.Proofs.Session.Captured
import GuestShell.Proofs.Session.CutOff
import GuestShell.Proofs.Session.Interrupted
import GuestShell.Proofs.Session.Parts
import GuestShell.Proofs.Session.Prompts
import GuestShell.Proofs.Session.Quiet
import GuestShell.Proofs.Session.Replacement
import GuestShell.Proofs.Session.SameInput
import GuestShell.Proofs.Session.SameRun
import GuestShell.Proofs.Session.Termination
import GuestShell.Proofs.Session.Transport
import GuestShell.Proofs.Session.WindowLines
import GuestShell.Proofs.Session.WireFormat
import GuestShell.Proofs.Session.WorkerRuns
import GuestShell.Proofs.Shell.Along
import GuestShell.Proofs.Shell.Crowd
import GuestShell.Proofs.Shell.LineFold
import GuestShell.Proofs.Shell.Runs
import GuestShell.Proofs.Shell.Visits
import GuestShell.Proofs.Slots.Numbers
import GuestShell.Proofs.Task.Runs
import GuestShell.Proofs.Terminal.OpenGate
import GuestShell.Proofs.Terminal.Recall
import GuestShell.Proofs.Terminal.Shown
import GuestShell.Proofs.Terminal.WholeLines
import GuestShell.Proofs.Text.Boundaries
import GuestShell.Proofs.Text.Pieces
import GuestShell.Rehearsal.Behavior
import GuestShell.Rehearsal.CommandLine
import GuestShell.Rehearsal.Console
import GuestShell.Rehearsal.Disk
import GuestShell.Rehearsal.Engine
import GuestShell.Rehearsal.Failure
import GuestShell.Rehearsal.Lookup
import GuestShell.Rehearsal.Network
import GuestShell.Rehearsal.Run
import GuestShell.Rehearsal.Screen
import GuestShell.Rehearsal.Shell
import GuestShell.Rehearsal.Worker
import GuestShell.Rehearsal.Written
import GuestShell.Run.Basic
import GuestShell.Run.Capture
import GuestShell.Run.Runnable
import GuestShell.Sandbox.Abi
import GuestShell.Sandbox.Glue
import GuestShell.Sandbox.Libc
import GuestShell.Sandbox.LibcTable
import GuestShell.Sandbox.Posix
import GuestShell.Sandbox.Process
import GuestShell.Sandbox.Stdin
import GuestShell.Session.Background
import GuestShell.Session.Basic
import GuestShell.Session.Context
import GuestShell.Session.Error
import GuestShell.Session.Foreground
import GuestShell.Session.Interrupts
import GuestShell.Session.Latch
import GuestShell.Session.Mailbox
import GuestShell.Session.Replacement
import GuestShell.Session.Slot
import GuestShell.Session.Window
import GuestShell.Session.Wire
import GuestShell.Session.Worker
import GuestShell.Shell.Basic
import GuestShell.Shell.Callable
import GuestShell.Shell.Crowd
import GuestShell.Shell.Dispatch
import GuestShell.Slots
import GuestShell.Task
import GuestShell.Terminal.Caption
import GuestShell.Terminal.Console
import GuestShell.Terminal.History
import GuestShell.Terminal.LineBuffer
import GuestShell.Terminal.Screen
import GuestShell.Text.Blank
import GuestShell.Text.Hidden
import GuestShell.Text.Quoted
import GuestShell.Text.Utf8
