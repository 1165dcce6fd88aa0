import Retrace.Breakpoint
import Retrace.Replay.Checkpoints
import Retrace.Session.Stop

/-!
# Sessions

A session moves through a replay from stop to stop. Without breakpoints every pause is a stop;
otherwise those statements are that a breakpoint hits, and those at which a move by call depth ends.

* `Session.start`, `Session.nextStop`, `Session.step`: the single moves.
* `Session.run`: all moves to the end of the log, or to a limit.
* `Session.remaining_move_lt`: a move that ends at a stop uses up lines of the log, so a run comes
  to an end.
-/

set_option linter.unusedVariables false

namespace Retrace

/-- A session. -/
structure Session where
  /-- The replay. -/
  replay : Replay
  /-- The breakpoints. -/
  breakpoints : List Breakpoint := []
  /-- How many stops were made. -/
  stops : Nat := 0

namespace Session

/-! ## Stops -/

/-- Whether the replay pauses at a statement that a breakpoint hits. -/
def isAtBreakpoint (breakpoints : List Breakpoint) (r : Replay) : Bool :=
  match r.current with
  | some (.statement _) =>
    r.state.top?.any fun frame => isBreakable breakpoints frame.source frame.line
  | _ => false

/-- The scopes of the current call that hold variables, as the user sees them. -/
def visibleScopes (r : Replay) : List (ScopeKind × List View) × Replay :=
  match r.state.top? with
  | none => ([], r)
  | some top =>
    let (scopes, r) := r.scopes top.id
    ((scopes.map fun (kind, handle) => (kind, r.state.views handle)).filter
      fun (_, views) => !views.isEmpty, r)

/-- Makes a stop where the replay stands, and shows the snapshot when it is at a checkpoint. -/
def stop (s : Session) (reason : StopReason) : Stop × Session :=
  let (overlay, r) := s.replay.applyOverlayAtTop
  let (scopes, r) := visibleScopes r
  ({ index := s.stops + 1, reason, overlay, frames := r.state.stack, scopes },
    { s with replay := r, stops := s.stops + 1 })

/-- Makes a stop when there is a reason for one. -/
def stopFor (s : Session) : Option StopReason → Option Stop × Session
  | none => (none, s)
  | some reason =>
    let (stop, s) := s.stop reason
    (some stop, s)

/-! ## Moves -/

/-- Enters the log; this is a stop only when asked for. -/
def start (s : Session) (stopOnEntry : Bool) : Option Stop × Session :=
  { s with replay := s.replay.advance }.stopFor (if stopOnEntry then some .entry else none)

/-- Why a pause is a stop of a session that does not move by call depth. -/
def pauseReason? (breakpoints : List Breakpoint) (r : Replay) : Option StopReason :=
  if isAtBreakpoint breakpoints r then some .breakpoint
  else if breakpoints.isEmpty then some .step
  else none

/-- Why a pause ends a move by call depth that began with `before` active calls. -/
def stepReason? (breakpoints : List Breakpoint) (kind : StepKind) (before : Nat) (r : Replay) :
    Option StopReason :=
  if kind.completes before r.depth then some .step
  else if isAtBreakpoint breakpoints r then some .breakpoint
  else none

/-- Goes to the first pause for which there is a reason to stop. -/
def moveUntil (s : Session) (reason? : Replay → Option StopReason) : Option Stop × Session :=
  let (reason, r) := s.replay.advanceUntil reason?
  { s with replay := r }.stopFor reason

/-- Goes to the next stop; there is none when the log ends before. -/
def nextStop (s : Session) : Option Stop × Session :=
  s.moveUntil (pauseReason? s.breakpoints)

/-- Moves by call depth. A breakpoint on the way ends the move early. -/
def step (s : Session) (kind : StepKind) : Option Stop × Session :=
  s.moveUntil (stepReason? s.breakpoints kind s.replay.depth)

/-- Moves by call depth when a kind of step is given, else to the next stop. -/
def move (s : Session) : Option StepKind → Option Stop × Session
  | some kind => s.step kind
  | none => s.nextStop

/-! ## Progress -/

theorem remaining_scopes (r : Replay) (frame : Nat) :
    (r.scopes frame).2.remaining = r.remaining := by
  unfold Replay.scopes
  split <;> rfl

theorem remaining_applyOverlayAtTop (r : Replay) :
    r.applyOverlayAtTop.2.remaining = r.remaining := by
  have h : r.revertOverlay.2.remaining = r.remaining := by
    simp [Replay.remaining, Replay.nextIndex]
  unfold Replay.applyOverlayAtTop
  split
  · unfold Replay.applyOverlay
    simp only
    split <;> exact h
  · rfl

theorem remaining_stop (s : Session) (reason : StopReason) :
    (s.stop reason).2.replay.remaining = s.replay.remaining := by
  rw [← remaining_applyOverlayAtTop s.replay]
  simp only [stop, visibleScopes]
  split
  · rfl
  · exact remaining_scopes _ _

/-- **Progress.** -/
theorem remaining_move_lt {s : Session} {kind : Option StepKind} {stop : Stop}
    (h : (s.move kind).1 = some stop) :
    (s.move kind).2.replay.remaining < s.replay.remaining := by
  have key : ∀ reason? : Replay → Option StopReason, (s.moveUntil reason?).1 = some stop →
      (s.moveUntil reason?).2.replay.remaining < s.replay.remaining := by
    intro reason? h
    unfold moveUntil at h ⊢
    cases hr : (s.replay.advanceUntil reason?).1 with
    | none => simp [hr, stopFor] at h
    | some reason =>
      simp only [hr, stopFor, remaining_stop]
      exact Replay.remaining_advanceUntil_lt hr
  cases kind with
  | none => exact key _ h
  | some kind => exact key _ h

/-! ## Runs -/

/-- A part of a run: the messages written on the way, and the stop at its end. -/
structure Leg where
  /-- The messages. -/
  messages : List Message
  /-- The stop; none when the log ended, or began without one. -/
  stop : Option Stop

/-- A run. -/
structure Run (ε : Type) where
  /-- Its parts in order. -/
  legs : List Leg
  /-- The session in the end. -/
  session : Session
  /-- The number of stops, unless a stop was refused. -/
  result : Except ε Nat

/-- The stops of a run in order. -/
def Run.stops {ε : Type} (run : Run ε) : List Stop :=
  run.legs.filterMap (·.stop)

/-- The messages of a run in order. -/
def Run.messages {ε : Type} (run : Run ε) : List Message :=
  run.legs.flatMap (·.messages)

/-- A run with a part in front. -/
def Run.prepend {ε : Type} (leg : Leg) (run : Run ε) : Run ε :=
  { run with legs := leg :: run.legs }

/-- Takes the messages written so far. -/
def takeMessages (s : Session) : List Message × Session :=
  let (messages, r) := s.replay.takeMessages
  (messages, { s with replay := r })

/-- Moves on until the log ends, the limit is reached or a stop is refused. -/
def runOn {ε : Type} (kind : Option StepKind) (limit : Option Nat) (onStop : Stop → Except ε Unit)
    (s : Session) : Run ε :=
  if limit.all (s.stops < ·) then
    match h : s.move kind with
    | (none, s') =>
      let (messages, s') := s'.takeMessages
      ⟨[⟨messages, none⟩], s', .ok s'.stops⟩
    | (some stop, s') =>
      match onStop stop with
      | .error e => ⟨[⟨s'.takeMessages.1, some stop⟩], s'.takeMessages.2, .error e⟩
      | .ok () =>
        (runOn kind limit onStop s'.takeMessages.2).prepend ⟨s'.takeMessages.1, some stop⟩
  else ⟨[], s, .ok s.stops⟩
termination_by s.replay.remaining
decreasing_by
  have := remaining_move_lt (congrArg Prod.fst h)
  rw [h] at this
  exact this

/-- Replays the whole log and hands every stop to the user, who may refuse one and end the run. -/
def run {ε : Type} (s : Session) (stopOnEntry : Bool) (kind : Option StepKind)
    (limit : Option Nat) (onStop : Stop → Except ε Unit) : Run ε :=
  let (stop, s) := s.start stopOnEntry
  let (messages, s) := s.takeMessages
  match stop.elim (.ok ()) onStop with
  | .error e => ⟨[⟨messages, stop⟩], s, .error e⟩
  | .ok () => (runOn kind limit onStop s).prepend ⟨messages, stop⟩

end Session

end Retrace
