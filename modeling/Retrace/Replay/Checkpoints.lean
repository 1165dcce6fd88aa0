import Retrace.Overlay
import Retrace.Replay.Advance

/-!
# Checkpoints in a replay

The checkpoints of a log are found by a search of the whole log, before anything is replayed. Their
snapshots are fetched by id and shown as overlays when the replay stops at the checkpoint.

* `Replay.scan`: the search.
* `Replay.receiveAll`: takes in what fetching the snapshots gave, checkpoint by checkpoint.
* `Replay.checkpointAt?`, `Replay.checkpointAtTop?`: the checkpoint a frame stands at.
* `Replay.applyOverlay`, `Replay.applyOverlayAtTop`: show its snapshot.
-/

namespace Retrace

/-- Why a snapshot could not be fetched. -/
inductive FetchError
  /-- There is no snapshot with the id. -/
  | notFound (id : String)
  /-- The snapshot could not be read, for the given cause. -/
  | unreadable (cause : String)
  /-- What was read is no snapshot, for the given cause. -/
  | undecodable (cause : String := "")
  /-- Fetching failed otherwise, for the given cause. -/
  | failed (cause : String)
  deriving DecidableEq, Repr

/-- The wording of the cause. -/
def FetchError.message : FetchError → String
  | .notFound id => "no heap dump payload found for snapshot " ++ id
  | .unreadable cause => "failed to read heap dump payload: " ++ cause
  | .undecodable cause => "failed to decode heap dump payload: " ++ cause
  | .failed cause => "failed to fetch heap dump: " ++ cause

namespace Replay

/-! ## Searching the log -/

/-- Searches one line, the one with the given index. -/
def scanStep (r : Replay) (line : String) (index : Nat) : Replay :=
  match scanLine line with
  | .nothing => r
  | .found c => { r with checkpoints := r.checkpoints ++ [c] }
  | .malformed => r.say { channel := .stderr, content := malformedLine (index + 1) line }

/-- Searches the whole log for checkpoints; the answer tells whether there are any. -/
def scan (r : Replay) : Bool × Replay :=
  let r := r.lines.zipIdx.foldl (fun r (line, index) => r.scanStep line index)
    { r with checkpoints := [] }
  (!r.checkpoints.isEmpty, r)

/-! ## Taking in snapshots -/

/-- Gives the first checkpoint with the id its snapshot. -/
def attach (id : String) (snapshot : Snapshot) : List Checkpoint → List Checkpoint
  | [] => []
  | c :: cs =>
    if c.id = id then { c with snapshot := some snapshot } :: cs else c :: attach id snapshot cs

/-- Gives a checkpoint its snapshot; the answer tells whether there is such a checkpoint. -/
def setSnapshot (r : Replay) (id : String) (snapshot : Snapshot) : Bool × Replay :=
  (r.checkpoints.any (·.id = id), { r with checkpoints := attach id snapshot r.checkpoints })

/-- Takes in what fetching gave for one id. Only the first of all failures is written. -/
def receiveOne (ok : Bool) (r : Replay) (id : String) (result : Except FetchError Snapshot) :
    Bool × Replay :=
  match result with
  | .ok snapshot => (ok, (r.setSnapshot id snapshot).2)
  | .error e =>
    (false, if ok then r.say { channel := .stderr, content := e.message } else r)

/-- The announcement of all snapshots to be fetched. -/
def announceFetching (r : Replay) : Replay :=
  r.say
    { channel := .console
      content := "Fetching heap dumps: " ++ ", ".intercalate (r.checkpoints.map (·.text)) }

/-- Takes in what fetching gave for each checkpoint, in the order of the checkpoints. What was
fetched is kept even when something failed; the answer tells whether nothing did. -/
def receiveAll (r : Replay) (results : List (String × Except FetchError Snapshot)) :
    Bool × Replay :=
  results.foldl (fun (ok, r) (id, result) => receiveOne ok r id result) (true, r)

/-- Fetches the snapshots of all checkpoints. -/
def fetchWith {m : Type → Type} [Monad m] (r : Replay)
    (fetch : String → m (Except FetchError Snapshot)) : m (Bool × Replay) := do
  if r.checkpoints.isEmpty then return (true, r)
  let ids := r.checkpoints.map (·.id)
  let results ← ids.mapM fetch
  return r.announceFetching.receiveAll (ids.zip results)

/-! ## Finding checkpoints -/

/-- The first checkpoint at which the frame stands. -/
def checkpointAt? (r : Replay) (frameName : String) (line : Nat) : Option Checkpoint :=
  r.checkpoints.find? (·.isAt frameName line)

/-- The checkpoint at which the current frame stands, if the marker passed last names its class and
its line. -/
def checkpointAtTop? (r : Replay) : Option Checkpoint :=
  r.state.top?.bind fun frame =>
    r.lastMarker.bind fun (className, line) =>
      if Text.contains frame.name className && frame.line = line then
        r.checkpointAt? frame.name frame.line
      else none

/-- Forgets the marker passed last. -/
def forgetMarker (r : Replay) : Replay :=
  { r with lastMarker := none }

/-! ## Overlays -/

/-- Shows the snapshot of the first checkpoint at which the current frame stands. Any overlay shown
so far is taken off; the answer tells whether there is a new one. -/
def applyOverlay (r : Replay) : Bool × Replay :=
  let r := r.revertOverlay.2
  let snapshot :=
    r.state.top?.bind fun frame => (r.checkpointAt? frame.name frame.line).bind (·.snapshot)
  match snapshot with
  | none => (false, r)
  | some snapshot =>
    (true,
      { r with
        saved := some r.state
        state := r.state.overlay snapshot r.isRunningTrigger })

/-- Shows the snapshot of the checkpoint that the replay has just stopped at. -/
def applyOverlayAtTop (r : Replay) : Bool × Replay :=
  if r.checkpointAtTop?.isSome then r.applyOverlay else (false, r)

end Replay

end Retrace
