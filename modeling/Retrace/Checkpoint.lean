import Retrace.Snapshot
import Retrace.Trace.Event

/-!
# Checkpoints

A checkpoint is a line at which a snapshot of the heap was captured. The log announces each by a
marker line, which names the class and the line of the checkpoint and the snapshot captured there.

* `Checkpoint`: the type, with the snapshot once it is fetched.
* `Checkpoint.ofFields?`: the reader of marker lines.
* `Checkpoint.isAt`: whether a frame stands at a checkpoint.
* `scanLine`: what a line holds, when a whole log is searched for checkpoints.
-/

namespace Retrace

/-- An announced snapshot. -/
structure Checkpoint where
  /-- The snapshot. -/
  id : String
  /-- The class of the checkpoint. -/
  className : String
  /-- The namespace of the class. -/
  namespaceName : String
  /-- The line of the checkpoint. -/
  line : Nat
  /-- What was captured, once it is fetched. -/
  snapshot : Option Snapshot := none
  deriving Inhabited

/-- The kind of marker lines. -/
def markerKind : String := "HEAP_DUMP"

/-- The complaint about a marker line with too few fields. -/
def malformedLine (number : Nat) (line : String) : String :=
  "Malformed log line at line " ++ toString number ++ ": " ++ line

namespace Checkpoint

/-- Reads a marker: snapshot, class, namespace and line stand in the fourth to seventh fields. A
line that is no count reads as zero. -/
def ofFields? : List String → Option Checkpoint
  | _ :: _ :: _ :: id :: className :: namespaceName :: line :: _ =>
    some { id, className, namespaceName, line := (Text.readCount? (Text.trim line)).getD 0 }
  | _ => none

/-- Whether the frame called `frameName` stands at the checkpoint: at its line, in a call whose name
holds the name of its class. -/
def isAt (c : Checkpoint) (frameName : String) (line : Nat) : Bool :=
  Text.contains frameName c.className && c.line = line

/-- Snapshot, class and line. -/
def text (c : Checkpoint) : String :=
  c.id ++ ":" ++ c.className ++ ":" ++ toString c.line

end Checkpoint

/-- What a search for checkpoints finds in a line. -/
inductive ScanResult
  /-- No marker. -/
  | nothing
  /-- A checkpoint. -/
  | found (c : Checkpoint)
  /-- A marker with too few fields. -/
  | malformed

/-- Searches a line. -/
def scanLine (line : String) : ScanResult :=
  if Text.contains line "|HEAP_DUMP|" then
    match Checkpoint.ofFields? (lineFields line) with
    | some c => .found c
    | none => .malformed
  else .nothing

end Retrace
