import Retrace.Proofs.Replay.Script
import Retrace.Proofs.Trace.DebugLines

/-!
# Debug output in a replay

Debug output is written with some lines of the log behind it. They are only quoted: the replay goes
through them afterwards, as it would without.

* `Replay.linesAheadByCounts?`: the lines ahead in the arithmetic of counts.
* `toList_foldl_lines`: quoted lines stand on lines of their own.
* `Replay.Requotes`: replays that differ in what they quote; every operation keeps them so.
* **`Replay.debug_passagesAlong`**: the debug output of a run.
-/

namespace Retrace

/-! ## Lines ahead -/

/-- The number, when it is a count. -/
def asCount? (n : Nat) : Option Nat := if n ≤ Text.maxCount then some n else none

/-- The sum, but at most the largest count. -/
def saturatingAdd (m n : Nat) : Nat := min (m + n) Text.maxCount

/-- The elements from the place `i` to the place `j`, when these are places of the list, the one not
behind the other. -/
def slice? {α : Type} (xs : List α) (i j : Nat) : Option (List α) :=
  if i ≤ j ∧ j ≤ xs.length then some ((xs.take j).drop i) else none

theorem slice?_eq_some {α : Type} {xs : List α} {i j : Nat} (hi : i ≤ j) (hj : j ≤ xs.length) :
    slice? xs i j = some ((xs.drop i).take (j - i)) := by
  rw [slice?, if_pos ⟨hi, hj⟩, List.drop_take]

namespace Replay

/-- The lines behind the one consumed last, at most `count`, when all places are counts and lie on
the log. -/
def linesAheadByCounts? (r : Replay) (count : Nat) : Option (List String) :=
  (r.position.elim (some 0) fun i => asCount? (i + 1)).bind fun start =>
    let stop := min (saturatingAdd start count) r.lines.length
    slice? r.lines (min start stop) stop

/-- **On the log no place leaves its range.** -/
theorem linesAheadByCounts?_eq {r : Replay} (hplace : r.nextIndex ≤ r.lines.length)
    (hlines : r.lines.length ≤ Text.maxCount) (count : Nat) :
    r.linesAheadByCounts? count = some (r.linesAhead count) := by
  have hstart : (r.position.elim (some 0) fun i => asCount? (i + 1)) = some r.nextIndex := by
    unfold nextIndex at hplace ⊢
    cases hp : r.position with
    | none => rfl
    | some i =>
      rw [hp] at hplace
      exact if_pos (hplace.trans hlines)
  have hstop : min (saturatingAdd r.nextIndex count) r.lines.length =
      r.nextIndex + min count (r.lines.length - r.nextIndex) := by
    unfold saturatingAdd
    omega
  rw [linesAheadByCounts?, hstart, Option.bind_some]
  dsimp only
  rw [hstop, Nat.min_eq_left (Nat.le_add_right ..), slice?_eq_some (by omega) (by omega), linesAhead]
  rw [Nat.add_sub_cancel_left, ← List.length_drop, ← List.take_eq_take_min]

end Replay

/-! ## What is written -/

theorem toList_foldl_lines (lines : List String) (text : String) :
    (lines.foldl (· ++ "\n" ++ ·) text).toList =
      text.toList ++ lines.flatMap fun line => '\n' :: line.toList := by
  induction lines generalizing text with
  | nil => simp
  | cons line lines ih =>
    rw [List.foldl_cons, ih, List.flatMap_cons]
    simp

namespace Replay

theorem keeps_config (config : Config) (lines : List String) :
    Keeps fun r => r.config = config ∧ r.lines = lines where
  blank _ h := h
  line {r line rest} _ _ h := by
    obtain ⟨_, _, hstep⟩ := r.moveOn.step_snd line
    obtain ⟨_, _, _, hclassify⟩ := r.moveOn.classify_snd line
    rw [hstep, hclassify]
    exact h
  ended _ h := h
  ready {r} h := by
    rw [revertOverlay_snd]
    unfold dropLogFrame
    split <;> exact h
  look {r op} hop h := by
    have hm := (matches_perform State.Alike.refl r hop (.inr fun _ _ h => h)).config
    rw [revertOverlay_snd, revertOverlay_snd] at hm
    exact ⟨hm.trans h.1, (lines_perform r op).trans h.2⟩

end Replay

/-! ## Other quotes -/

/-- The message without its text, when that may quote the log. -/
def Message.unquoted (m : Message) : Message :=
  if m.channel = .console then { m with content := "" } else m

/-- What is reported of a passage: the line, its number, and the event. -/
def Passage.report (p : Passage) : String × Nat × Event := (p.line, p.number, p.event)

namespace Replay

/-- The replay without what it quotes of the log and without how much it quotes. -/
def unquoted (r : Replay) : Replay :=
  { r with
    config := { r.config with debugContext := 0 }
    messages := r.messages.map Message.unquoted }

/-- The replay with another number of lines to quote, and with other messages. -/
def requote (c : Nat) (ms : List Message) (r : Replay) : Replay :=
  { r with config := { r.config with debugContext := c }, messages := ms }

/-- **Replays that differ at most in what they quote**, and in how much. -/
def Requotes (r q : Replay) : Prop :=
  ∃ c ms, q = r.requote c ms ∧ ms.map Message.unquoted = r.messages.map Message.unquoted

namespace Requotes

variable {r q : Replay}

theorem unquoted (h : r.Requotes q) : r.unquoted = q.unquoted := by
  obtain ⟨c, ms, rfl, hms⟩ := h
  unfold Replay.unquoted
  rw [← hms]
  rfl

theorem same {α : Type} (h : r.Requotes q) (f : Replay → α)
    (hf : ∀ c ms, f (r.requote c ms) = f r) : f q = f r := by
  obtain ⟨c, ms, rfl, -⟩ := h
  exact hf c ms

/-- What neither writes messages nor depends on quotes goes on alike. -/
theorem silent (h : r.Requotes q) (f : Replay → Replay) (hf : (f r).messages = r.messages)
    (commutes : ∀ c ms, f (r.requote c ms) = (f r).requote c ms) : (f r).Requotes (f q) := by
  obtain ⟨c, ms, rfl, hms⟩ := h
  exact ⟨c, ms, commutes c ms, by rw [hf, hms]⟩

theorem say (h : r.Requotes q) {m m' : Message} (hm : m'.unquoted = m.unquoted) :
    (r.say m).Requotes (q.say m') := by
  obtain ⟨c, ms, rfl, hms⟩ := h
  refine ⟨c, ms ++ [m'], rfl, ?_⟩
  show _ = (r.messages ++ [m]).map Message.unquoted
  rw [List.map_append, List.map_append, hms, List.map_singleton, List.map_singleton, hm]

/-! ### Lines -/

theorem moveOn (h : r.Requotes q) : r.moveOn.Requotes q.moveOn :=
  h.silent Replay.moveOn rfl fun _ _ => rfl

theorem noteScript (h : r.Requotes q) (line : String) :
    (r.noteScript line).Requotes (q.noteScript line) := by
  unfold Replay.noteScript
  split
  · exact h.silent (fun r => { r with script := r.script ++ [r.nextIndex] }) rfl fun _ _ => rfl
  · exact h

theorem noteMarker (h : r.Requotes q) (line : String) :
    (r.noteMarker line).Requotes (q.noteMarker line) := by
  unfold Replay.noteMarker
  split
  · split
    · split
      · next c _ =>
        exact h.silent (fun r => { r with lastMarker := some (c.className, c.line) }) rfl
          fun _ _ => rfl
      · rw [h.same nextIndex fun _ _ => rfl]
        exact h.say rfl
    · exact h
  · exact h

theorem classify (h : r.Requotes q) (line : String) :
    (r.classify line).1 = (q.classify line).1 ∧
      (r.classify line).2.Requotes (q.classify line).2 := by
  unfold Replay.classify
  rw [h.same (·.current) fun _ _ => rfl]
  cases r.current with
  | none => exact ⟨rfl, h⟩
  | some e => exact ⟨rfl, (h.noteScript line).noteMarker line⟩

theorem echo (h : r.Requotes q) (line : String) (e : Event) :
    (r.echo line e).Requotes (q.echo line e) := by
  unfold Replay.echo
  rw [h.same (·.config.echo) fun _ _ => rfl]
  split
  · exact h.say rfl
  · exact h

/-- **Events are handled alike**; only the quotes behind debug output differ. -/
theorem handle (h : r.Requotes q) (e : Event) : (r.handle e).Requotes (q.handle e) := by
  cases e with
  | debug line text => exact h.say (h.same (fun r => (r.debugMessage line text).unquoted)
      fun _ _ => rfl)
  | finish signature =>
    simp only [Replay.handle, handleFinish, h.same (·.state.topActivation?) fun _ _ => rfl]
    split
    · exact h
    · split
      · exact h.silent (·.mapState (·.popFrame)) rfl fun _ _ => rfl
      · exact h
  | other => exact h
  | _ => exact h.silent (·.handle _) rfl fun _ _ => rfl

/-- **Lines are stepped through alike.** -/
theorem step (h : r.Requotes q) (line : String) :
    (r.step line).1 = (q.step line).1 ∧ (r.step line).2.Requotes (q.step line).2 := by
  obtain ⟨hevent, hclassified⟩ := h.classify line
  have handled := (hclassified.echo line (r.classify line).1).handle (r.classify line).1
  refine ⟨hevent, ?_⟩
  unfold Replay.step
  dsimp only
  rw [← hevent]
  exact handled.silent (fun r' => { r' with current := some (r.classify line).1 }) rfl
    fun _ _ => rfl

theorem consume (h : r.Requotes q) (ls : List String) :
    (passagesThrough ls r).map Passage.report = (passagesThrough ls q).map Passage.report ∧
      (consume ls r).Requotes (consume ls q) := by
  induction ls generalizing r q with
  | nil =>
    exact ⟨rfl, h.silent (fun r => { r with position := some r.lines.length }) rfl fun _ _ => rfl⟩
  | cons line rest ih =>
    obtain ⟨hevent, hstep⟩ := h.moveOn.step line
    have hreport : Passage.report ⟨q.moveOn, line⟩ = Passage.report ⟨r.moveOn, line⟩ :=
      congrArg₂ (fun i e => (line, i, e)) (h.moveOn.same nextIndex fun _ _ => rfl) hevent.symm
    simp only [passagesThrough, Replay.consume]
    split
    · exact ih h.moveOn
    · rw [← hevent]
      split
      · exact ⟨by rw [List.map_singleton, List.map_singleton, hreport], hstep⟩
      · obtain ⟨hreports, hend⟩ := ih hstep
        exact ⟨by rw [List.map_cons, List.map_cons, hreport, hreports], hend⟩

/-! ### Operations -/

theorem revertOverlay (h : r.Requotes q) : r.revertOverlay.2.Requotes q.revertOverlay.2 :=
  h.silent (·.revertOverlay.2) (by rw [revertOverlay_snd]) fun c ms => by
    rw [revertOverlay_snd, revertOverlay_snd]
    rfl

theorem dropLogFrame (h : r.Requotes q) : r.dropLogFrame.Requotes q.dropLogFrame := by
  unfold Replay.dropLogFrame
  rw [h.same (·.current) fun _ _ => rfl]
  split
  · exact h.silent (·.mapState (·.popFrame)) rfl fun _ _ => rfl
  · exact h

/-- **Advances are alike**, and go through the same lines. -/
theorem advance (h : r.Requotes q) :
    r.passages.map Passage.report = q.passages.map Passage.report ∧
      r.advance.Requotes q.advance := by
  have ready := h.revertOverlay.dropLogFrame
  rw [passages, passages, Replay.advance, Replay.advance]
  rw [ready.same (fun r => r.lines.drop r.nextIndex) fun _ _ => rfl]
  exact ready.consume _

theorem applyOverlay (h : r.Requotes q) : r.applyOverlay.2.Requotes q.applyOverlay.2 := by
  have bare := h.revertOverlay
  unfold Replay.applyOverlay
  dsimp only
  rw [bare.same (fun r => r.state.top?.bind fun frame =>
    (r.checkpointAt? frame.name frame.line).bind (·.snapshot)) fun _ _ => rfl]
  split
  · exact bare
  · next snapshot _ =>
    exact bare.silent (fun r =>
      { r with saved := some r.state, state := r.state.overlay snapshot r.isRunningTrigger })
      rfl fun _ _ => rfl

theorem applyOverlayAtTop (h : r.Requotes q) :
    r.applyOverlayAtTop.2.Requotes q.applyOverlayAtTop.2 := by
  unfold Replay.applyOverlayAtTop
  rw [h.same (·.checkpointAtTop?) fun _ _ => rfl]
  split
  · exact h.applyOverlay
  · exact h

theorem scanStep (h : r.Requotes q) (line : String) (index : Nat) :
    (r.scanStep line index).Requotes (q.scanStep line index) := by
  unfold Replay.scanStep
  split
  · exact h
  · next c _ =>
    exact h.silent (fun r => { r with checkpoints := r.checkpoints ++ [c] }) rfl fun _ _ => rfl
  · exact h.say rfl

theorem foldl_scanStep (h : r.Requotes q) (ls : List (String × Nat)) :
    (ls.foldl (fun r l => r.scanStep l.1 l.2) r).Requotes
      (ls.foldl (fun r l => r.scanStep l.1 l.2) q) := by
  induction ls generalizing r q with
  | nil => exact h
  | cons l ls ih => exact ih (h.scanStep l.1 l.2)

theorem scan (h : r.Requotes q) : r.scan.2.Requotes q.scan.2 := by
  have cleared := h.silent (fun r => { r with checkpoints := [] }) rfl fun _ _ => rfl
  have hlines : q.scan.2 =
      r.lines.zipIdx.foldl (fun r l => r.scanStep l.1 l.2) { q with checkpoints := [] } := by
    rw [← h.same (·.lines) fun _ _ => rfl]
    rfl
  rw [hlines]
  exact cleared.foldl_scanStep r.lines.zipIdx

theorem scopes (h : r.Requotes q) (frame : Nat) :
    (r.scopes frame).2.Requotes (q.scopes frame).2 := by
  unfold Replay.scopes
  rw [h.same (·.state.activations.get? frame) fun _ _ => rfl]
  split
  · exact h
  · exact h.silent (·.mapState fun state =>
      { state with
        handles := ((state.handles.create (.scope frame .locals)).create
          (.scope frame .statics)).create (.scope frame .globals) }) rfl fun _ _ => rfl

theorem perform (h : r.Requotes q) (op : Operation) : (r.perform op).Requotes (q.perform op) := by
  cases op with
  | advance => exact h.advance.2
  | applyOverlay => exact h.applyOverlay
  | applyOverlayAtTop => exact h.applyOverlayAtTop
  | revertOverlay => exact h.revertOverlay
  | scan => exact h.scan
  | setSnapshot id snapshot =>
    exact h.silent (fun r => (r.setSnapshot id snapshot).2) rfl fun _ _ => rfl
  | forgetMarker => exact h.silent Replay.forgetMarker rfl fun _ _ => rfl
  | scopes frame => exact h.scopes frame
  | views handle => exact h

/-- **Runs are alike**, and go through the same lines with the same events. -/
theorem performAll (h : r.Requotes q) (ops : List Operation) :
    (passagesAlong ops r).map Passage.report = (passagesAlong ops q).map Passage.report ∧
      (r.performAll ops).Requotes (q.performAll ops) := by
  induction ops generalizing r q with
  | nil => exact ⟨rfl, h⟩
  | cons op ops ih =>
    have hfirst : (if op.isAdvance then r.passages else []).map Passage.report =
        (if op.isAdvance then q.passages else []).map Passage.report := by
      split
      · exact h.advance.1
      · rfl
    obtain ⟨hreports, hend⟩ := ih (h.perform op)
    refine ⟨?_, hend⟩
    rw [passagesAlong, passagesAlong, List.map_append, List.map_append, hfirst, hreports]

end Requotes

/-! ## Runs -/

theorem requotes_fresh (config : Config) (resolver : Resolver) (lines : List String) :
    (fresh config resolver lines).Requotes (fresh { config with debugContext := 0 } resolver lines) :=
  ⟨0, [], rfl, rfl⟩

/-- **Debug output keeps its text and its context.** When a line of a run is debug output, one
message is written for it. It says what stands behind the fourth bar of the line, and below it the
lines of the log behind this one, as many as are configured or left, each on a line of its own; it
belongs to the source of the current frame. In the arithmetic of counts no place leaves its range.
The run goes through the lines that are quoted as through any others: it goes through the same lines
with the same events as a run that quotes none, and comes to the same replay, but for the quotes. -/
theorem debug_passagesAlong (config : Config) (resolver : Resolver) (lines : List String)
    (ops : List Operation) :
    let r := fresh config resolver lines
    let q := fresh { config with debugContext := 0 } resolver lines
    (∀ p ∈ passagesAlong ops r, ∀ n text, p.event = .debug n text →
      ∃ (before behind : List String) (m : Message),
        lines = before ++ p.line :: behind ∧ p.number = before.length + 1 ∧
        (∃ time number level : String, (∀ s ∈ [time, number, level], '|' ∉ s.toList) ∧
          p.line = time ++ "|USER_DEBUG|" ++ number ++ "|" ++ level ++ "|" ++ text) ∧
        p.after.messages = p.replay.messages ++ [m] ∧ m.channel = .console ∧
        m.content.toList = text.toList ++
          (behind.take config.debugContext).flatMap (fun line => '\n' :: line.toList) ∧
        m.source = p.replay.state.top?.map (·.source) ∧
        (lines.length ≤ Text.maxCount →
          p.replay.linesAheadByCounts? config.debugContext =
            some (behind.take config.debugContext))) ∧
    (passagesAlong ops r).map Passage.report = (passagesAlong ops q).map Passage.report ∧
    (r.performAll ops).unquoted = (q.performAll ops).unquoted := by
  intro r q
  obtain ⟨hreports, hend⟩ := (requotes_fresh config resolver lines).performAll ops
  refine ⟨fun p hp n text he => ?_, hreports, hend.unquoted⟩
  obtain ⟨r', rest, ⟨hconfig, hlines⟩, hls, -, hreplay⟩ :=
    ((keeps_config config lines).run ops (r := r) ⟨rfl, rfl⟩).1 p hp
  obtain ⟨replay, line⟩ := p
  subst hreplay
  have hlt := lt_length_of_drop hls
  obtain ⟨hbehind, -⟩ := drop_moveOn hls
  -- the lines ahead of the passage are those behind its line
  have hahead : r'.moveOn.linesAhead config.debugContext = rest.take config.debugContext := by
    rw [linesAhead, hbehind]
  have hevent : Event.ofLine line = .debug n text := by
    have hfirst := r'.moveOn.classify_fst line
    change (r'.moveOn.classify line).1 = _ at he
    rw [he] at hfirst
    split at hfirst
    · cases hfirst
    · exact hfirst.symm
  -- the message is written behind the notes taken of the line
  obtain ⟨_, _, _, hnotes⟩ := r'.moveOn.classify_snd line
  refine ⟨lines.take r'.nextIndex, rest, _, ?_, ?_, ?_, messages_step_debug he, rfl, ?_, ?_, ?_⟩
  · rw [← hls, hlines, List.take_append_drop]
  · rw [List.length_take, ← hlines, Nat.min_eq_left (Nat.le_of_lt hlt)]
    rfl
  · obtain ⟨time, number, level, habsent, -, hline⟩ := Event.eq_of_ofLine_debug hevent
    exact ⟨time, number, level, habsent, hline⟩
  · rw [debugMessage, toList_foldl_lines, hnotes]
    show text.toList ++ (r'.moveOn.linesAhead r'.config.debugContext).flatMap _ = _
    rw [hconfig, hahead]
  · rw [debugMessage, state_classify]
  · intro hcounts
    rw [linesAheadByCounts?_eq (r := r'.moveOn) hlt (hlines ▸ hcounts), hahead]

/-- A log with debug output in front of an empty line and of a statement. -/
def debugLog : List String :=
  ["62.0 APEX_CODE,FINEST",
    "0|METHOD_ENTRY|[1]|1|A.f()",
    "0|USER_DEBUG|[2]|DEBUG|a|b",
    "",
    "0|STATEMENT_EXECUTE|[3]"]

set_option maxRecDepth 100000 in
/-- With the largest count all lines that are left are quoted, and the statement among them is still
executed. -/
theorem debug_debugLog :
    let config : Config := { debugContext := Text.maxCount }
    let ops := [.advance, .advance]
    let r := fresh config (fun _ => none) debugLog
    debugLog.length ≤ Text.maxCount ∧
    (∃ p ∈ passagesAlong ops r, p.event = .debug 2 "a|b" ∧
      p.after.messages.map (·.content) = ["a|b\n\n0|STATEMENT_EXECUTE|[3]"] ∧
      p.replay.linesAheadByCounts? Text.maxCount = some ["", "0|STATEMENT_EXECUTE|[3]"]) ∧
    (r.performAll ops).unquoted.state.stack.map (·.line) = [3] := by
  intro config ops r
  obtain ⟨hdebug, -, hend⟩ := debug_passagesAlong config (fun _ => none) debugLog ops
  have hfound : ((passagesAlong ops r).any fun p => decide (p.event = .debug 2 "a|b" ∧
      p.number = 3 ∧ p.replay.messages = [])) = true := by
    decide +kernel
  obtain ⟨p, hp, hfacts⟩ := List.any_eq_true.1 hfound
  obtain ⟨he, hnumber, hmessages⟩ := of_decide_eq_true hfacts
  obtain ⟨before, behind, m, hlines, hplace, -, hwritten, -, hcontent, -, hcounts⟩ :=
    hdebug p hp 2 "a|b" he
  have hbehind : behind = ["", "0|STATEMENT_EXECUTE|[3]"] := by
    have hdrop : debugLog.drop (before.length + 1) = behind := by
      rw [hlines, ← List.drop_drop, List.drop_left]
      rfl
    rw [← hplace, hnumber] at hdrop
    exact hdrop.symm
  subst hbehind
  refine ⟨by decide, ⟨p, hp, he, ?_, hcounts (by decide)⟩, ?_⟩
  · have htext : m.content = "a|b\n\n0|STATEMENT_EXECUTE|[3]" :=
      String.toList_inj.1 (hcontent.trans (by decide +kernel))
    rw [hwritten, hmessages, List.nil_append, List.map_singleton, htext]
  · rw [hend]
    decide +kernel

end Replay

end Retrace
