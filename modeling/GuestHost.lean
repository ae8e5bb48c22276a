import GuestHost.Abi.Clock
import GuestHost.Abi.Errno
import GuestHost.Abi.IoVec
import GuestHost.Abi.Marshal
import GuestHost.Abi.Signature
import GuestHost.Abi.Value
import GuestHost.Asyncify.Bridge
import GuestHost.Asyncify.Practice
import GuestHost.Bytes
import GuestHost.CommandLine.Command
import GuestHost.CommandLine.Invocation
import GuestHost.Failure
import GuestHost.Filesystem.Document
import GuestHost.Filesystem.Instance
import GuestHost.Filesystem.Linkage
import GuestHost.Filesystem.Module
import GuestHost.Filesystem.Practice
import GuestHost.Filesystem.Seed
import GuestHost.Guest
import GuestHost.Guest.Document
import GuestHost.Json.Parser
import GuestHost.Json.Payload
import GuestHost.Json.Value
import GuestHost.Main
import GuestHost.Memory
import GuestHost.Program.Code
import GuestHost.Program.Document
import GuestHost.Program.Eval
import GuestHost.Program.Machine
import GuestHost.Proofs.Abi.Arrays
import GuestHost.Proofs.Abi.Buffers
import GuestHost.Proofs.Abi.Careful
import GuestHost.Proofs.Abi.Patches
import GuestHost.Proofs.Abi.Ranges
import GuestHost.Proofs.Abi.Scatter
import GuestHost.Proofs.Asyncify.Actions
import GuestHost.Proofs.Asyncify.Course
import GuestHost.Proofs.Asyncify.Discipline
import GuestHost.Proofs.Asyncify.Ledger
import GuestHost.Proofs.Asyncify.Moves
import GuestHost.Proofs.Asyncify.OneByOne
import GuestHost.Proofs.Asyncify.Replay
import GuestHost.Proofs.Asyncify.Retelling
import GuestHost.Proofs.Asyncify.Transparency
import GuestHost.Proofs.Careful
import GuestHost.Proofs.Filesystem.Copies
import GuestHost.Proofs.Filesystem.Journey
import GuestHost.Proofs.Filesystem.Reach
import GuestHost.Proofs.Filesystem.Results
import GuestHost.Proofs.Filesystem.Scratch
import GuestHost.Proofs.Json.RoundTrip
import GuestHost.Proofs.Program.Actions
import GuestHost.Proofs.Program.Keeping
import GuestHost.Proofs.Program.Listening
import GuestHost.Proofs.Program.Reach
import GuestHost.Proofs.Program.Relating
import GuestHost.Proofs.Program.Script
import GuestHost.Proofs.Session.Answers
import GuestHost.Proofs.Session.Apart
import GuestHost.Proofs.Session.Careful
import GuestHost.Proofs.Session.CleanUp
import GuestHost.Proofs.Session.Counts
import GuestHost.Proofs.Session.Delivery
import GuestHost.Proofs.Session.Diagnostics
import GuestHost.Proofs.Session.Discipline
import GuestHost.Proofs.Session.Ending
import GuestHost.Proofs.Session.Exit
import GuestHost.Proofs.Session.Header
import GuestHost.Proofs.Session.Hushed
import GuestHost.Proofs.Session.Input
import GuestHost.Proofs.Session.Isolation
import GuestHost.Proofs.Session.Layout
import GuestHost.Proofs.Session.Loss
import GuestHost.Proofs.Session.Offers
import GuestHost.Proofs.Session.Outputs
import GuestHost.Proofs.Session.Reads
import GuestHost.Proofs.Session.Routing
import GuestHost.Proofs.Session.Seeding
import GuestHost.Proofs.Session.Status
import GuestHost.Proofs.Session.Steady
import GuestHost.Proofs.Session.Steps
import GuestHost.Proofs.Session.Streaming
import GuestHost.Proofs.Session.Strings
import GuestHost.Proofs.Session.Trace
import GuestHost.Proofs.Session.Transfers
import GuestHost.Proofs.Session.Twins
import GuestHost.Proofs.Session.Writes
import GuestHost.Proofs.Stream.Agreement
import GuestHost.Proofs.Stream.Careful
import GuestHost.Proofs.Stream.Custody
import GuestHost.Proofs.Stream.Faultless
import GuestHost.Proofs.Stream.Inputs
import GuestHost.Proofs.Stream.Open
import GuestHost.Proofs.Stream.Pulls
import GuestHost.Proofs.Stream.Reading
import GuestHost.Proofs.Stream.Taken
import GuestHost.Proofs.Stream.Twins
import GuestHost.Proofs.Stream.Writing
import GuestHost.Runs
import GuestHost.Session.Calls
import GuestHost.Session.Imports
import GuestHost.Session.Run
import GuestHost.Session.Start
import GuestHost.Session.State
import GuestHost.Stream.Descriptor
import GuestHost.Stream.Error
import GuestHost.Stream.Exchange
import GuestHost.Stream.Sink
import GuestHost.Stream.Source
import GuestHost.Text.Hidden
import GuestHost.Text.Lossy
import GuestHost.Text.Quoted
import GuestHost.Text.Terminal
import GuestHost.View
