import Retrace.Proofs.Replay.Turns
import Retrace.Proofs.State.Alike

/-!
# Replays that match

Two replays of one log go on alike from the same place when their states are related by something
that all events keep. Messages, checkpoints and markers do not matter.

* `State.Stable`: the relations that all events keep; `stable_eq`, `stable_alike`.
* `Replay.Matches`: replays at the same place of the same log, with related states.
* **`Replay.Matches.advance`**: advances keep replays matching.
-/

namespace Retrace

namespace State

/-- Relations between states that all events keep. -/
structure Stable (ρ : State → State → Prop) : Prop where
  stack : ∀ {s t}, ρ s t → s.stack = t.stack
  activations : ∀ {s t}, ρ s t → s.activations = t.activations
  statics : ∀ {s t}, ρ s t → s.statics = t.statics
  pushFrame : ∀ {s t}, ρ s t → ∀ statics signature className scope source line,
    ρ (({ s with statics } : State).pushFrame signature className scope source line)
      (({ t with statics } : State).pushFrame signature className scope source line)
  popFrame : ∀ {s t}, ρ s t → ρ s.popFrame t.popFrame
  setLine : ∀ {s t}, ρ s t → ∀ line, ρ (s.setLine line) (t.setLine line)
  declare : ∀ {s t}, ρ s t → ∀ d, ρ (s.declare d) (t.declare d)
  assign : ∀ {s t}, ρ s t → ∀ a, ρ (s.assign a) (t.assign a)

theorem stable_eq : Stable Eq where
  stack h := by rw [h]
  activations h := by rw [h]
  statics h := by rw [h]
  pushFrame h _ _ _ _ _ _ := by rw [h]
  popFrame h := by rw [h]
  setLine h _ := by rw [h]
  declare h _ := by rw [h]
  assign h _ := by rw [h]

theorem stable_alike : Stable Alike where
  stack h := h.stack
  activations h := h.activations
  statics h := h.statics
  pushFrame h := h.pushFrame
  popFrame h := h.popFrame
  setLine h := h.setLine
  declare h := h.declare
  assign h := h.assign

end State

namespace Replay

/-! ## Matching replays -/

/-- Replays at the same place of the same log, with related states. -/
structure Matches (ρ : State → State → Prop) (r q : Replay) : Prop where
  config : r.config = q.config
  resolver : r.resolver = q.resolver
  lines : r.lines = q.lines
  position : r.position = q.position
  current : r.current = q.current
  script : r.script = q.script
  state : ρ r.state q.state

namespace Matches

variable {ρ : State → State → Prop} {r q : Replay}

theorem nextIndex (h : r.Matches ρ q) : r.nextIndex = q.nextIndex := by
  unfold Replay.nextIndex
  rw [h.position]

theorem top? (hρ : State.Stable ρ) (h : r.Matches ρ q) : r.state.top? = q.state.top? := by
  unfold State.top?
  rw [hρ.stack h.state]

theorem topActivation? (hρ : State.Stable ρ) (h : r.Matches ρ q) :
    r.state.topActivation? = q.state.topActivation? := by
  unfold State.topActivation?
  rw [h.top? hρ, hρ.activations h.state]

theorem frameLine (hρ : State.Stable ρ) (h : r.Matches ρ q) (line : Nat) :
    r.frameLine line = q.frameLine line := by
  unfold Replay.frameLine scriptLine
  rw [h.top? hρ, h.script]

theorem mapState (h : r.Matches ρ q) {f g : State → State} (hfg : ρ (f r.state) (g q.state)) :
    (r.mapState f).Matches ρ (q.mapState g) :=
  ⟨h.config, h.resolver, h.lines, h.position, h.current, h.script, hfg⟩

theorem say (h : r.Matches ρ q) (m m' : Message) : (r.say m).Matches ρ (q.say m') :=
  ⟨h.config, h.resolver, h.lines, h.position, h.current, h.script, h.state⟩

/-- **Events keep replays matching.** -/
theorem handle (hρ : State.Stable ρ) (h : r.Matches ρ q) (e : Event) :
    (r.handle e).Matches ρ (q.handle e) := by
  cases e with
  | logStart =>
    simp only [Replay.handle, handleLogStart]
    refine h.mapState ?_
    rw [hρ.statics h.state, logSource, logSource, h.config]
    exact hρ.pushFrame h.state _ _ _ _ _ _
  | call signature =>
    have hl : r.locate signature = q.locate signature := by
      unfold locate logSource
      rw [h.config, h.resolver]
    simp only [Replay.handle, handleCall]
    refine h.mapState ?_
    rw [hρ.statics h.state, hl]
    exact hρ.pushFrame h.state _ _ _ _ _ _
  | finish signature =>
    simp only [Replay.handle, handleFinish, h.topActivation? hρ]
    split
    · exact h
    · split
      · exact h.mapState (hρ.popFrame h.state)
      · exact h
  | statement line =>
    simp only [Replay.handle, handleStatement, h.frameLine hρ]
    exact h.mapState (hρ.setLine h.state _)
  | debug line text => exact h.say _ _
  | declaration d => exact h.mapState (f := (·.declare d)) (g := (·.declare d)) (hρ.declare h.state d)
  | assignment a => exact h.mapState (f := (·.assign a)) (g := (·.assign a)) (hρ.assign h.state a)
  | other => exact h

theorem noteScript (h : r.Matches ρ q) (line : String) :
    (r.noteScript line).Matches ρ (q.noteScript line) := by
  unfold Replay.noteScript
  split
  · refine ⟨h.config, h.resolver, h.lines, h.position, h.current, ?_, h.state⟩
    dsimp only
    rw [h.script, h.nextIndex]
  · exact h

theorem noteMarker (h : r.Matches ρ q) (line : String) :
    (r.noteMarker line).Matches ρ (q.noteMarker line) := by
  unfold Replay.noteMarker
  split
  · split
    · split
      · exact ⟨h.config, h.resolver, h.lines, h.position, h.current, h.script, h.state⟩
      · exact h.say _ _
    · exact h
  · exact h

theorem classify (h : r.Matches ρ q) (line : String) :
    (r.classify line).1 = (q.classify line).1 ∧
      (r.classify line).2.Matches ρ (q.classify line).2 := by
  unfold Replay.classify
  rw [h.current]
  split
  · exact ⟨rfl, h⟩
  · exact ⟨rfl, (h.noteScript line).noteMarker line⟩

theorem echo (h : r.Matches ρ q) (line : String) (e : Event) :
    (r.echo line e).Matches ρ (q.echo line e) := by
  unfold Replay.echo
  rw [h.config]
  split
  · exact h.say _ _
  · exact h

theorem step (hρ : State.Stable ρ) (h : r.Matches ρ q) (line : String) :
    (r.step line).1 = (q.step line).1 ∧ (r.step line).2.Matches ρ (q.step line).2 := by
  obtain ⟨he, hc⟩ := h.classify line
  have hh := (hc.echo line (r.classify line).1).handle hρ (r.classify line).1
  refine ⟨he, ?_⟩
  unfold Replay.step
  dsimp only
  rw [← he]
  exact ⟨hh.config, hh.resolver, hh.lines, hh.position, rfl, hh.script, hh.state⟩

theorem moveOn (h : r.Matches ρ q) : r.moveOn.Matches ρ q.moveOn :=
  ⟨h.config, h.resolver, h.lines, congrArg some h.nextIndex, h.current, h.script, h.state⟩

theorem consume (hρ : State.Stable ρ) (h : r.Matches ρ q) (ls : List String) :
    (consume ls r).Matches ρ (consume ls q) := by
  induction ls generalizing r q with
  | nil =>
    exact ⟨h.config, h.resolver, h.lines,
      congrArg (fun ls : List String => some ls.length) h.lines, h.current, h.script, h.state⟩
  | cons line rest ih =>
    unfold Replay.consume
    split
    · exact ih h.moveOn
    · obtain ⟨he, hs⟩ := h.moveOn.step hρ line
      dsimp only
      rw [he]
      split
      · exact hs
      · exact ih hs

theorem dropLogFrame (hρ : State.Stable ρ) (h : r.Matches ρ q) :
    r.dropLogFrame.Matches ρ q.dropLogFrame := by
  unfold Replay.dropLogFrame
  rw [h.current]
  split
  · exact h.mapState (hρ.popFrame h.state)
  · exact h

/-- **Advances keep replays matching**, whatever overlays they show. -/
theorem advance (hρ : State.Stable ρ) (h : r.revertOverlay.2.Matches ρ q.revertOverlay.2) :
    r.advance.Matches ρ q.advance := by
  have hd := h.dropLogFrame hρ
  unfold Replay.advance
  dsimp only
  rw [hd.lines, hd.nextIndex]
  exact hd.consume hρ _

theorem trans {q' : Replay} (hρ : ∀ {s t u}, ρ s t → ρ t u → ρ s u) (h : r.Matches ρ q)
    (h' : q.Matches ρ q') : r.Matches ρ q' where
  config := h.config.trans h'.config
  resolver := h.resolver.trans h'.resolver
  lines := h.lines.trans h'.lines
  position := h.position.trans h'.position
  current := h.current.trans h'.current
  script := h.script.trans h'.script
  state := hρ h.state h'.state

end Matches

end Replay

end Retrace
