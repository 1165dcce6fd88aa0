import Retrace.Checkpoint
import Retrace.Console
import Retrace.State

/-!
# Replays

A replay goes through the lines of a log and keeps the state that they rebuild. While an overlay
shows a snapshot, the state below it is kept aside.

* `Config`: what the user can choose; `Resolver`: where the code of a callee lives.
* `Replay`: a replay at some place of the log.
* `Replay.hasLines`, `Replay.nextIndex`: how far it has come.
* `Replay.locate`, `Replay.scriptLine`: the source of a callee, and the place of a script's line.
-/

namespace Retrace

/-- What the user can choose. -/
structure Config where
  /-- The path of the log. -/
  logPath : String := ""
  /-- Whether consumed lines are echoed, debug output aside. -/
  echo : Bool := false
  /-- How many lines of the log are quoted behind debug output. -/
  debugContext : Nat := 2
  deriving DecidableEq, Repr

/-- The file name of the log. -/
def Config.logName (c : Config) : String :=
  (Text.fileName? c.logPath).getD ""

/-- Finds the source of the callee of a signature. -/
abbrev Resolver := String → Option Locator

/-- A replay. -/
structure Replay where
  /-- What the user chose. -/
  config : Config := {}
  /-- Where code lives. -/
  resolver : Resolver := fun _ => none
  /-- The lines of the log. -/
  lines : List String
  /-- The index of the line consumed last; the number of lines once the log is exhausted. -/
  position : Option Nat := none
  /-- The event of the line consumed last. -/
  current : Option Event := none
  /-- The state shown. -/
  state : State := .empty
  /-- The state below the overlay, while there is one. -/
  saved : Option State := none
  /-- For each line of the inline script, the number of the log line that quotes it. -/
  script : List Nat := []
  /-- The checkpoints that a search of the log has found. -/
  checkpoints : List Checkpoint := []
  /-- Class and line of the marker passed last. -/
  lastMarker : Option (String × Nat) := none
  /-- The messages written and not yet taken, oldest first. -/
  messages : List Message := []

namespace Replay

/-- The index of the line behind the one consumed last. Counted from one, it is the number of the
line consumed last. -/
def nextIndex (r : Replay) : Nat :=
  r.position.elim 0 (· + 1)

/-- How many lines are left. -/
def remaining (r : Replay) : Nat :=
  r.lines.length - r.nextIndex

/-- Whether the replay is still on the log; so it is while it pauses at the last line. -/
def hasLines (r : Replay) : Bool :=
  !r.lines.isEmpty && r.position.all (· < r.lines.length)

/-- Whether the log was captured with enough detail. -/
def meetsLevels (r : Replay) : Bool :=
  r.lines.head?.any hasReplayLevels

/-- The locator of the log itself. -/
def logSource (r : Replay) : Locator :=
  .ofPath r.config.logPath

/-- Where the code of a callee lives. Inline scripts are quoted in the log. -/
def locate (r : Replay) (signature : String) : Locator :=
  if signature = inlineScript then r.logSource else (r.resolver signature).getD .unknown

/-- The number of the log line that quotes the given line of the inline script; zero when none
does. -/
def scriptLine (r : Replay) (line : Nat) : Nat :=
  match line with
  | 0 => 0
  | index + 1 => r.script[index]?.getD 0

/-- A line of the current frame's code as a line of its source. -/
def frameLine (r : Replay) (line : Nat) : Nat :=
  match r.state.top? with
  | some frame => if frame.name = inlineScript then r.scriptLine line else line
  | none => line

/-- The lines behind the one consumed last, at most `count`. -/
def linesAhead (r : Replay) (count : Nat) : List String :=
  (r.lines.drop r.nextIndex).take count

/-- How many calls are active. -/
def depth (r : Replay) : Nat :=
  r.state.stack.length

/-- Whether the code of the current frame is a trigger. -/
def isRunningTrigger (r : Replay) : Bool :=
  r.state.top?.any fun frame => Text.endsWith (Text.lower frame.source.name) ".trigger"

/-- Whether an overlay is shown. -/
def hasOverlay (r : Replay) : Bool :=
  r.saved.isSome

/-- Writes a message. -/
def say (r : Replay) (m : Message) : Replay :=
  { r with messages := r.messages ++ [m] }

/-- Takes the messages written so far. -/
def takeMessages (r : Replay) : List Message × Replay :=
  (r.messages, { r with messages := [] })

/-- Changes the state. -/
def mapState (r : Replay) (f : State → State) : Replay :=
  { r with state := f r.state }

/-- Gives each scope of a frame a new handle; an unknown frame has no scopes. -/
def scopes (r : Replay) (frame : Nat) : List (ScopeKind × Nat) × Replay :=
  if (r.state.activations.get? frame).isNone then ([], r)
  else
    ScopeKind.all.foldl
      (fun (given, r) kind =>
        (given ++ [(kind, r.state.handles.next)],
          r.mapState fun state =>
            { state with handles := state.handles.create (.scope frame kind) }))
      ([], r)

end Replay

end Retrace
