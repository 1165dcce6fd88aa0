import Retrace.Replay
import Retrace.State.Assign
import Retrace.State.Declare

/-!
# Events in a replay

* `Replay.classify`: the event of a line, with a note of script lines and markers.
* `Replay.handle`: what an event does.
* `Event.pauses`: the events at which a replay pauses.
-/

namespace Retrace

/-- Whether a replay pauses at the event. -/
def Event.pauses : Event → Bool
  | .logStart | .statement _ => true
  | _ => false

/-- Whether the event is debug output. -/
def Event.isDebug : Event → Bool
  | .debug _ _ => true
  | _ => false

namespace Replay

/-! ## Lines -/

/-- Takes note of a line of the inline script. -/
def noteScript (r : Replay) (line : String) : Replay :=
  if Text.startsWith line "Execute Anonymous:" then { r with script := r.script ++ [r.nextIndex] }
  else r

/-- Takes note of a marker, and complains about one with too few fields. -/
def noteMarker (r : Replay) (line : String) : Replay :=
  match lineFields line with
  | fields@(_ :: kind :: _ :: _) =>
    if kind = markerKind then
      match Checkpoint.ofFields? fields with
      | some c => { r with lastMarker := some (c.className, c.line) }
      | none => r.say { channel := .stderr, content := malformedLine r.nextIndex line }
    else r
  | _ => r

/-- The event of a line. The first line always begins the log, whatever it holds. -/
def classify (r : Replay) (line : String) : Event × Replay :=
  match r.current with
  | none => (.logStart, r)
  | some _ => (Event.ofLine line, (r.noteScript line).noteMarker line)

/-! ## Effects -/

/-- The log begins: a frame stands for the log itself. -/
def handleLogStart (r : Replay) : Replay :=
  r.mapState fun state =>
    let (scope, statics) := state.statics.createDetached
    { state with statics }.pushFrame r.config.logName "" scope r.logSource 1

/-- A call begins: a frame of its class. -/
def handleCall (r : Replay) (signature : String) : Replay :=
  r.mapState fun state =>
    let className := Signature.className signature
    let (scope, statics) := state.statics.register className
    { state with statics }.pushFrame signature className scope (r.locate signature) 0

/-- A call ends: the current frame is dropped when its signature begins the one that ends. The log
may write more of a signature at the end of a call than at its beginning. -/
def handleFinish (r : Replay) (signature : String) : Replay :=
  match r.state.topActivation? with
  | none => r
  | some activation =>
    if Text.startsWith signature activation.signature then r.mapState (·.popFrame) else r

/-- A statement is executed: the current frame moves to its line. -/
def handleStatement (r : Replay) (line : Nat) : Replay :=
  r.mapState (·.setLine (r.frameLine line))

/-- Debug output is written to the console, with the configured number of lines behind it. -/
def handleDebug (r : Replay) (line : Nat) (text : String) : Replay :=
  r.say
    { channel := .console
      content := (r.linesAhead r.config.debugContext).foldl (· ++ "\n" ++ ·) text
      source := r.state.top?.map (·.source)
      line := some (r.frameLine line) }

/-- What an event does. -/
def handle (r : Replay) : Event → Replay
  | .logStart => r.handleLogStart
  | .call signature => r.handleCall signature
  | .finish signature => r.handleFinish signature
  | .statement line => r.handleStatement line
  | .debug line text => r.handleDebug line text
  | .declaration d => r.mapState (·.declare d)
  | .assignment a => r.mapState (·.assign a)
  | .other => r

/-! ## What stays -/

@[simp] theorem lines_classify (r : Replay) (line : String) :
    (r.classify line).2.lines = r.lines := by
  unfold classify noteMarker noteScript say
  repeat' split
  all_goals rfl

@[simp] theorem position_classify (r : Replay) (line : String) :
    (r.classify line).2.position = r.position := by
  unfold classify noteMarker noteScript say
  repeat' split
  all_goals rfl

@[simp] theorem lines_handle (r : Replay) (e : Event) : (r.handle e).lines = r.lines := by
  cases e <;> simp only [handle, handleLogStart, handleCall, handleFinish, handleStatement,
    handleDebug, mapState, say]
  repeat' split
  all_goals rfl

@[simp] theorem position_handle (r : Replay) (e : Event) :
    (r.handle e).position = r.position := by
  cases e <;> simp only [handle, handleLogStart, handleCall, handleFinish, handleStatement,
    handleDebug, mapState, say]
  repeat' split
  all_goals rfl

end Replay

end Retrace
