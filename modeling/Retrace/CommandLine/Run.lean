import Retrace.CommandLine.Arguments
import Retrace.Files
import Retrace.Json.Pretty
import Retrace.Session
import Retrace.Snapshot.Decode
import Retrace.Snapshot.Encode
import Retrace.Trace.Lines
import Retrace.TypeIndex

/-!
# Carrying out commands

* `Output`: what a command prints; `Outcome` adds the failure that ended it.
* `replayLog`, `inspectLog`: the two commands.
* `Command.run`: either of them.
-/

namespace Retrace.CommandLine

/-! ## Output -/

/-- What is printed. -/
structure Output where
  /-- On the standard output. -/
  out : String := ""
  /-- On the standard error output. -/
  err : String := ""
  deriving DecidableEq, Repr

namespace Output

/-- Nothing. -/
def empty : Output := {}

/-- One output behind another. -/
def append (a b : Output) : Output where
  out := a.out ++ b.out
  err := a.err ++ b.err

/-- A line on the standard output. -/
def line (s : String) : Output := { out := s ++ "\n" }

/-- A line on the standard error output. -/
def errorLine (s : String) : Output := { err := s ++ "\n" }

/-- All outputs in order. -/
def concat (outputs : List Output) : Output :=
  outputs.foldl append empty

/-- A message. Complaints go to the standard error output. -/
def ofMessage (m : Message) : Output :=
  match m.channel with
  | .stderr => errorLine m.text
  | .stdout | .console => line m.text

/-- A part of a run. -/
def ofLeg (leg : Session.Leg) : Output :=
  append (concat (leg.messages.map ofMessage))
    (leg.stop.elim empty fun stop => { out := stop.text })

end Output

/-- What a command prints, and why it failed when it did. -/
structure Outcome where
  /-- What is printed. -/
  output : Output := {}
  /-- The failure. -/
  failure : Option String := none
  deriving DecidableEq, Repr

/-- The warning about a log that was captured with too little detail. -/
def levelWarning : String :=
  "this log was not captured with APEX_CODE at FINEST and VISUALFORCE at FINER or FINEST; " ++
    "variables may be missing"

/-! ## Commands -/

/-- The failure to read a log. -/
def unreadableLog (path : String) : Outcome :=
  { failure := some ("Failed to read trace log " ++ path) }

/-- Fetches a snapshot from a directory, where it stands in a file called by its id. What is wrong
with a text that is no snapshot is not told. -/
def fetchFrom {m : Type → Type} [Monad m] (files : Files m) (directory id : String) :
    m (Except FetchError Snapshot) := do
  match ← files.read (Text.joinPath directory (id ++ ".json")) with
  | .error .notFound => return .error (.notFound id)
  | .error e => return .error (.unreadable e.message)
  | .ok text => return ((Snapshot.parse? text).map .ok).getD (.error (.undecodable ""))

/-- Searches the log for checkpoints, and fetches their snapshots when a directory is given. -/
def prepareSnapshots {m : Type → Type} [Monad m] (files : Files m) (directory : Option String)
    (r : Replay) : m Replay := do
  let (found, r) := r.scan
  match found, directory with
  | true, some directory =>
    let (_, r) ← r.fetchWith (fetchFrom files directory)
    return r
  | _, _ => return r

/-- The index of the source files below a directory; no types when none is given. -/
def loadTypes {m : Type → Type} [Monad m] (files : Files m) :
    Option String → m (Except FileError TypeIndex)
  | none => return .ok .empty
  | some root => do return (← files.below root).map TypeIndex.ofFiles

/-- Replays a log and prints every stop. -/
def replayLog {m : Type → Type} [Monad m] (files : Files m) (log : String) (s : ReplaySettings) :
    m Outcome := do
  match ← files.read log with
  | .error _ => return unreadableLog log
  | .ok contents =>
    match ← loadTypes files s.sourceRoot with
    | .error _ =>
      return { failure := some ("Failed to scan source root " ++ s.sourceRoot.getD "") }
    | .ok types =>
      let config : Config := { logPath := log, echo := s.echo }
      let config :=
        { config with debugContext := s.debugContext.getD config.debugContext }
      let replay : Replay := { config, resolver := types.resolve, lines := traceLines contents }
      let warning :=
        if replay.meetsLevels then .empty else Output.errorLine ("warning: " ++ levelWarning)
      let replay ← prepareSnapshots files s.snapshots replay
      let session : Session := { replay, breakpoints := s.breakpoints }
      let accept : Stop → Except Empty Unit := fun _ => .ok ()
      let run := session.run s.stopOnEntry s.step s.maxStops accept
      let ending :=
        match run.result with
        | .ok n => Output.line ("Replay finished after " ++ toString n ++ " stop(s)")
      return { output := .concat (warning :: run.legs.map .ofLeg ++ [ending]) }

/-- The findings of an inspection as lines. -/
def inspectionLines (log : String) (r : Replay) : List String :=
  ["Log: " ++ log, "Lines: " ++ toString r.lines.length,
    "Log levels: " ++ if r.meetsLevels then "ok" else "insufficient, " ++ levelWarning] ++
    if r.checkpoints.isEmpty then ["Heap dumps: none"]
    else
      "Heap dumps:" :: r.checkpoints.map fun c =>
        "  " ++ c.text ++ " (namespace " ++ c.namespaceName ++ ")"

/-- Inspects a log and prints what is found. -/
def inspectLog {m : Type → Type} [Monad m] (files : Files m) (log : String)
    (s : InspectSettings) : m Outcome := do
  match ← files.read log with
  | .error _ => return unreadableLog log
  | .ok contents =>
    let replay : Replay := { config := { logPath := log }, lines := traceLines contents }
    let (_, replay) := replay.scan
    let complaints := Output.concat (replay.messages.map .ofMessage)
    let findings :=
      if s.json then [(Json.array (replay.checkpoints.map Checkpoint.toJson)).pretty]
      else inspectionLines log replay
    return { output := complaints.append (.concat (findings.map .line)) }

/-- Carries out a command. -/
def Command.run {m : Type → Type} [Monad m] (files : Files m) : Command → m Outcome
  | .replay log settings => replayLog files log settings
  | .inspect log settings => inspectLog files log settings

end Retrace.CommandLine
