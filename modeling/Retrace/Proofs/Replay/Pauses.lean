import Retrace.Proofs.Replay.Matching

/-!
# Pauses of a replay

* `Pause`, `Replay.pauses`: the pauses that lie ahead of a replay.
* `Replay.getElem?_pauses`: they are found by bare advances.
* `Replay.pauses_of_not_hasLines`, **`Replay.pauses_advance`**: an advance goes to the first of them.
* `Replay.Matches.pauses`: matching replays have the same pauses ahead.
* **`Replay.advanceUntil_eq`**: advancing until something is found goes to the first pause at which
  it is found, and leaves the later ones.
-/

set_option linter.unusedVariables false

namespace Retrace

/-- A pause: the place in the log, the event there, and the call stack with the current call
first. -/
structure Pause where
  position : Option Nat
  event : Option Event
  stack : List Frame
  deriving DecidableEq

namespace Replay

/-- The pause at which a replay stands. -/
def pause (r : Replay) : Pause := ⟨r.position, r.current, r.state.stack⟩

/-- The pauses that lie ahead. -/
def pauses (r : Replay) : List Pause :=
  if h : r.advance.hasLines then r.advance.pause :: r.advance.pauses else []
termination_by r.remaining
decreasing_by exact remaining_advance_lt h

theorem pauses_of_hasLines {r : Replay} (h : r.advance.hasLines) :
    r.pauses = r.advance.pause :: r.advance.pauses := by
  rw [pauses, dif_pos h]

theorem pauses_of_not_advance {r : Replay} (h : ¬ r.advance.hasLines) : r.pauses = [] := by
  rw [pauses, dif_neg h]

theorem pauses_of_not_hasLines {r : Replay} (h : ¬ r.hasLines) : r.pauses = [] := by
  refine pauses_of_not_advance fun ha => h ?_
  have hl : r.lines.isEmpty = false := by
    simpa [hasLines] using (Bool.and_eq_true_iff.1 ha).1
  have hlt := remaining_advance_lt ha
  -- an advance that stays on the log uses up a line, so there was one left
  cases hp : r.position with
  | none => simp [hasLines, hl, hp]
  | some i =>
    have hi : i < r.lines.length := by
      simp only [remaining, nextIndex, hp, Option.elim_some] at hlt
      omega
    simp [hasLines, hl, hp, hi]

/-- **An advance goes to the first pause.** -/
theorem pauses_advance (r : Replay) : r.advance.pauses = r.pauses.tail := by
  by_cases h : r.advance.hasLines
  · rw [pauses_of_hasLines h, List.tail_cons]
  · rw [pauses_of_not_advance h, pauses_of_not_hasLines h, List.tail_nil]

theorem getElem?_pauses (r : Replay) (i : Nat) :
    r.pauses[i]? =
      if (r.advances (i + 1)).hasLines then some (r.advances (i + 1)).pause else none := by
  induction i generalizing r with
  | zero =>
    show r.pauses[0]? = if r.advance.hasLines then some r.advance.pause else none
    split
    · next h => rw [pauses_of_hasLines h, List.getElem?_cons_zero]
    · next h => rw [pauses_of_not_advance h, List.getElem?_nil]
  | succ i ih =>
    rw [← List.getElem?_tail, ← pauses_advance, ih]
    rfl

section Matches

variable {ρ : State → State → Prop} {r q : Replay}

theorem Matches.pause (hρ : State.Stable ρ) (h : r.Matches ρ q) : r.pause = q.pause := by
  unfold Replay.pause
  rw [h.position, h.current, hρ.stack h.state]

theorem Matches.hasLines (h : r.Matches ρ q) : r.hasLines = q.hasLines := by
  unfold Replay.hasLines
  rw [h.lines, h.position]

/-- **Matching replays have the same pauses ahead.** -/
theorem Matches.pauses (hρ : State.Stable ρ)
    (h : r.revertOverlay.2.Matches ρ q.revertOverlay.2) : r.pauses = q.pauses := by
  fun_induction Replay.pauses r generalizing q with
  | case1 r hl ih =>
    have ha := h.advance hρ
    have hq : q.advance.hasLines := ha.hasLines ▸ hl
    rw [pauses_of_hasLines hq, ha.pause hρ]
    congr 1
    refine ih ?_
    rw [revertOverlay_advance, revertOverlay_advance]
    exact ha
  | case2 r hl =>
    have ha := h.advance hρ
    have hq : ¬ q.advance.hasLines := ha.hasLines ▸ hl
    rw [pauses_of_not_advance hq]

end Matches

/-! ## Advancing until something is found -/

theorem saved_advanceUntil {α : Type} (p : Replay → Option α) (r : Replay) :
    (r.advanceUntil p).2.saved = none := by
  fun_induction advanceUntil p r with
  | case1 r => exact r.saved_advance
  | case2 r _ _ ih => exact ih
  | case3 r => exact r.saved_advance

/-- **What is found is found at the first pause that has it**, and the later pauses lie ahead. -/
theorem advanceUntil_eq {α : Type} {p : Replay → Option α} {g : Pause → Option α}
    (hp : ∀ q, p q = g q.pause) (r : Replay) :
    ((r.advanceUntil p).1.map fun a => (a, (r.advanceUntil p).2.pause)) =
        r.pauses.findSome? (fun x => (g x).map fun a => (a, x)) ∧
      (r.advanceUntil p).2.pauses = (r.pauses.dropWhile fun x => (g x).isNone).tail := by
  fun_induction advanceUntil p r with
  | case1 r hl a ha =>
    rw [hp] at ha
    rw [pauses_of_hasLines hl]
    simp [ha]
  | case2 r hl hn ih =>
    rw [hp] at hn
    rw [pauses_of_hasLines hl]
    simpa [hn] using ih
  | case3 r hl =>
    rw [pauses_of_not_advance hl, pauses_of_not_hasLines hl]
    exact ⟨rfl, rfl⟩

end Replay

end Retrace
