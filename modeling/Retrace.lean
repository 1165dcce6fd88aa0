import Retrace.Breakpoint
import Retrace.Checkpoint
import Retrace.CommandLine.Arguments
import Retrace.CommandLine.Options
import Retrace.CommandLine.Run
import Retrace.Console
import Retrace.Decimal
import Retrace.Decimal.Double
import Retrace.Files
import Retrace.Files.Tree
import Retrace.Handles
import Retrace.Json
import Retrace.Json.Canonical
import Retrace.Json.Pretty
import Retrace.Json.Reader
import Retrace.Json.Token
import Retrace.Literal
import Retrace.Literal.Reader
import Retrace.Locator
import Retrace.Main
import Retrace.Overlay
import Retrace.Replay
import Retrace.Replay.Advance
import Retrace.Replay.Checkpoints
import Retrace.Replay.Events
import Retrace.Session
import Retrace.Session.Stop
import Retrace.Signature
import Retrace.Snapshot
import Retrace.Snapshot.Decode
import Retrace.Snapshot.Encode
import Retrace.State
import Retrace.State.Assign
import Retrace.State.Declare
import Retrace.Statics
import Retrace.Store
import Retrace.Store.Display
import Retrace.Table
import Retrace.Text.Blank
import Retrace.Text.Count
import Retrace.Text.Cut
import Retrace.Text.Digit
import Retrace.Text.Path
import Retrace.Trace.Event
import Retrace.Trace.Lines
import Retrace.Trace.Shape
import Retrace.TypeIndex
import Retrace.TypeName
import Retrace.Proofs.Access
import Retrace.Proofs.State.Slots
import Retrace.Proofs.State.Writes
import Retrace.Proofs.State.Assignments
import Retrace.Proofs.Replay.Turns
import Retrace.Proofs.Aliasing.Coherence
import Retrace.Proofs.Aliasing.Isolation
import Retrace.Proofs.State.Alike
import Retrace.Proofs.Replay.Transparency
import Retrace.Proofs.Overlay.Frames
import Retrace.Proofs.Replay.Pauses
import Retrace.Proofs.Session.Navigation
import Retrace.Proofs.State.Edits
import Retrace.Proofs.State.WellFormed
import Retrace.Proofs.Overlay.Contents
import Retrace.Proofs.Overlay.Touches
import Retrace.Proofs.Overlay.Moves
import Retrace.Proofs.Overlay.Passes.Objects
import Retrace.Proofs.Overlay.Passes.Variables
import Retrace.Proofs.Overlay.Passes
import Retrace.Proofs.Overlay.Edits
import Retrace.Proofs.Aliasing.Overlays
import Retrace.Proofs.Replay.Runs
import Retrace.Proofs.Replay.Calls
import Retrace.Proofs.Replay.ClassScopes
import Retrace.Proofs.Replay.FrameTable
import Retrace.Proofs.Replay.Folding
import Retrace.Proofs.Replay.Identities
import Retrace.Proofs.Replay.Markers
import Retrace.Proofs.Store.Rendering
import Retrace.Proofs.Store.Mirrors
import Retrace.Proofs.Overlay.Reads
import Retrace.Proofs.Overlay.Texts
import Retrace.Proofs.Overlay.Displays
import Retrace.Proofs.Overlay.Looks
import Retrace.Proofs.Overlay.Objects
import Retrace.Proofs.Overlay.Slots
import Retrace.Proofs.Overlay.Outcome
import Retrace.Proofs.Overlay.Order
import Retrace.Proofs.Tables
import Retrace.Proofs.Literal.Printing
import Retrace.Proofs.Replay.Objects
import Retrace.Proofs.Overlay.Untouched
import Retrace.Proofs.Session.Renewal
import Retrace.Proofs.Text.Blanks
import Retrace.Proofs.Text.Cuts
import Retrace.Proofs.Trace.AssignmentLines
import Retrace.Proofs.Session.Limits
import Retrace.Proofs.Replay.Depths
import Retrace.Proofs.Session.Steps
import Retrace.Proofs.Replay.Receivers
import Retrace.Proofs.Replay.Passages
import Retrace.Proofs.Replay.Script
import Retrace.Proofs.Replay.Searches
import Retrace.Proofs.Overlay.Triggers
import Retrace.Proofs.State.Sources
import Retrace.Proofs.Replay.Sources
import Retrace.Proofs.Replay.Fetching
import Retrace.Proofs.Replay.Resolution
import Retrace.Proofs.Trace.DebugLines
import Retrace.Proofs.Replay.DebugOutput
import Retrace.Proofs.Text.Counts
import Retrace.Proofs.Json.Spelling
import Retrace.Proofs.Snapshot.Decoding
import Retrace.Proofs.Breakpoint
import Retrace.Proofs.Trace.LineEnds
import Retrace.Proofs.TypeName
