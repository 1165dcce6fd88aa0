import Retrace.Replay.Events

/-!
# Advancing

A replay advances line by line until an event pauses it or the log ends. Any overlay is taken off
first, and the frame that stands for the log itself goes with the first advance behind it.

* `Replay.consume`: goes through lines, one step per line.
* `Replay.advance`: goes to the next pause.
* `Replay.advanceUntil`: goes on to a pause with some property.
* **`remaining_advance_lt`**: an advance that stays on the log uses up lines, so repeated advancing
  comes to an end.
-/

set_option linter.unusedVariables false

namespace Retrace.Replay

/-! ## Overlays -/

/-- Takes the overlay off; the answer tells whether there was one. -/
def revertOverlay (r : Replay) : Bool × Replay :=
  match r.saved with
  | some state => (true, { r with state, saved := none })
  | none => (false, r)

/-! ## Steps -/

/-- Drops the frame that stands for the log, directly behind the beginning of the log. -/
def dropLogFrame (r : Replay) : Replay :=
  if r.current = some .logStart then r.mapState (·.popFrame) else r

/-- Echoes a line when that is configured; debug output shows itself. -/
def echo (r : Replay) (line : String) (e : Event) : Replay :=
  if r.config.echo && !e.isDebug then r.say { channel := .stdout, content := line } else r

/-- What a line that is not empty does: the event, and the replay behind it. -/
def step (r : Replay) (line : String) : Event × Replay :=
  let (e, r) := r.classify line
  (e, { (r.echo line e).handle e with current := some e })

/-- Moves to the next line. -/
def moveOn (r : Replay) : Replay :=
  { r with position := some r.nextIndex }

/-- Goes through lines up to a pause. Empty lines only count as lines. Behind the last line the log
is exhausted. -/
def consume : List String → Replay → Replay
  | [], r => { r with position := some r.lines.length }
  | line :: rest, r =>
    if line = "" then consume rest r.moveOn
    else
      let (e, r) := r.moveOn.step line
      if e.pauses then r else consume rest r

/-- Goes to the next pause, or off the end of the log. -/
def advance (r : Replay) : Replay :=
  let r := r.revertOverlay.2.dropLogFrame
  consume (r.lines.drop r.nextIndex) r

/-! ## Progress -/

@[simp] theorem lines_step (r : Replay) (line : String) : (r.step line).2.lines = r.lines := by
  simp only [step, echo, say, lines_handle]
  split <;> simp

@[simp] theorem position_step (r : Replay) (line : String) :
    (r.step line).2.position = r.position := by
  simp only [step, echo, say, position_handle]
  split <;> simp

@[simp] theorem lines_revertOverlay (r : Replay) : r.revertOverlay.2.lines = r.lines := by
  unfold revertOverlay; split <;> rfl

@[simp] theorem position_revertOverlay (r : Replay) :
    r.revertOverlay.2.position = r.position := by
  unfold revertOverlay; split <;> rfl

@[simp] theorem lines_dropLogFrame (r : Replay) : r.dropLogFrame.lines = r.lines := by
  unfold dropLogFrame; split <;> rfl

@[simp] theorem position_dropLogFrame (r : Replay) : r.dropLogFrame.position = r.position := by
  unfold dropLogFrame; split <;> rfl

@[simp] theorem lines_moveOn (r : Replay) : r.moveOn.lines = r.lines := rfl

@[simp] theorem nextIndex_moveOn (r : Replay) : r.moveOn.nextIndex = r.nextIndex + 1 := rfl

@[simp] theorem nextIndex_step (r : Replay) (line : String) :
    (r.step line).2.nextIndex = r.nextIndex := by
  simp [nextIndex]

theorem lines_consume (ls : List String) (r : Replay) : (consume ls r).lines = r.lines := by
  induction ls generalizing r with
  | nil => rfl
  | cons line rest ih =>
    simp only [consume]
    split
    · rw [ih, lines_moveOn]
    · split
      · rw [lines_step, lines_moveOn]
      · rw [ih, lines_step, lines_moveOn]

/-- The place behind going through lines: it lies ahead, or the log is exhausted. -/
theorem nextIndex_consume (ls : List String) (r : Replay) :
    (consume ls r).position = some r.lines.length ∨ r.nextIndex < (consume ls r).nextIndex := by
  induction ls generalizing r with
  | nil => exact .inl rfl
  | cons line rest ih =>
    simp only [consume]
    split
    · have h := ih r.moveOn
      simp only [lines_moveOn, nextIndex_moveOn] at h
      exact h.imp id Nat.lt_of_succ_lt
    · split
      · exact .inr (by simp)
      · have h := ih (r.moveOn.step line).2
        simp only [lines_step, lines_moveOn, nextIndex_step, nextIndex_moveOn] at h
        exact h.imp id Nat.lt_of_succ_lt

@[simp] theorem lines_advance (r : Replay) : r.advance.lines = r.lines := by
  simp [advance, lines_consume]

/-- **Progress.** -/
theorem remaining_advance_lt {r : Replay} (h : r.advance.hasLines) :
    r.advance.remaining < r.remaining := by
  have hp := nextIndex_consume
    (r.revertOverlay.2.dropLogFrame.lines.drop r.revertOverlay.2.dropLogFrame.nextIndex)
    r.revertOverlay.2.dropLogFrame
  change r.advance.position = _ ∨ _ < r.advance.nextIndex at hp
  simp only [hasLines, Bool.and_eq_true, lines_advance] at h
  have hn : r.revertOverlay.2.dropLogFrame.nextIndex = r.nextIndex := by
    simp [nextIndex]
  rw [hn] at hp
  rcases hp with hp | hp
  · simp [hp] at h
  · have hlt : r.advance.nextIndex ≤ r.lines.length := by
      cases hpos : r.advance.position with
      | none => simp [nextIndex, hpos]
      | some i =>
        rw [hpos] at h
        have := of_decide_eq_true h.2
        simpa [nextIndex, hpos, Nat.succ_le_iff] using this
    simp only [remaining, lines_advance]
    omega

/-! ## Repeated advancing -/

/-- Advances until `p` finds something at a pause; finds nothing when the log ends before. -/
def advanceUntil {α : Type} (p : Replay → Option α) (r : Replay) : Option α × Replay :=
  if h : r.advance.hasLines then
    match p r.advance with
    | some a => (some a, r.advance)
    | none => advanceUntil p r.advance
  else (none, r.advance)
termination_by r.remaining
decreasing_by exact remaining_advance_lt h

/-- What is found lies ahead. -/
theorem remaining_advanceUntil_lt {α : Type} {p : Replay → Option α} {r : Replay} {a : α}
    (h : (r.advanceUntil p).1 = some a) : (r.advanceUntil p).2.remaining < r.remaining := by
  fun_induction advanceUntil p r with
  | case1 r hl b hb => exact remaining_advance_lt hl
  | case2 r hl hn ih => exact Nat.lt_trans (ih h) (remaining_advance_lt hl)
  | case3 => simp at h

end Retrace.Replay
