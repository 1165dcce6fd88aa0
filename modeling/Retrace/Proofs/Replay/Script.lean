import Retrace.Proofs.Replay.Markers
import Retrace.Proofs.Replay.Passages

/-!
# The inline script in the log

The code of an inline script is quoted in the log, line by line. A replay takes note of the lines
that quote it as it goes through them, and shows a line of the script as the line of the log that
quotes it.

* `scriptLines`, `quoteOf`: the lines of the log that quote the script, and one of them.
* `Replay.Quotes`, `Replay.keeps_quotes`: a replay has noted the quotes that it has gone through.
* **`Replay.script_performAll`**: so it does all along a run; frames and debug output are placed by
  these notes.
-/

namespace Retrace

/-- Whether a line quotes a line of the inline script. -/
def quotesScript (line : String) : Bool := Text.startsWith line "Execute Anonymous:"

/-- The numbers of the lines before the place `i` that quote the inline script. The first line that
is not empty begins the log, whatever it holds. -/
def scriptLines (lines : List String) (i : Nat) : List Nat :=
  ((written lines 0 i).tail.filter fun l => quotesScript l.1).map (·.2 + 1)

/-- The number of the line before the place `i` that quotes the given line of the script; zero when
none does. -/
def quoteOf (lines : List String) (i : Nat) : Nat → Nat
  | 0 => 0
  | n + 1 => (scriptLines lines i)[n]?.getD 0

/-- A line of the code of a frame as a line of its source, before the place `i`. -/
def sourceLine (lines : List String) (i : Nat) (frame : Frame) (n : Nat) : Nat :=
  if frame.name = inlineScript then quoteOf lines i n else n

/-! ## Lines of the script -/

theorem pairwise_scriptLines (lines : List String) (i : Nat) :
    (scriptLines lines i).Pairwise (· < ·) := by
  have hplaces : (lines.zipIdx.map Prod.snd).Pairwise (· < ·) := by
    rw [List.zipIdx_map_snd, ← List.range_eq_range']
    exact List.pairwise_lt_range
  have hsub : ((written lines 0 i).tail.filter fun l => quotesScript l.1).Sublist
      lines.zipIdx :=
    List.filter_sublist.trans <| (List.tail_sublist _).trans <| List.filter_sublist.trans <|
      (List.drop_sublist ..).trans (List.take_sublist ..)
  have hnumbers := hplaces.sublist (hsub.map Prod.snd)
  rw [List.pairwise_map] at hnumbers
  exact List.pairwise_map.2 (hnumbers.imp Nat.succ_lt_succ)

theorem scriptLines_succ {lines rest : List String} {line : String} {i : Nat}
    (h : lines.drop i = line :: rest) :
    scriptLines lines (i + 1) = scriptLines lines i ++
      if written lines 0 i ≠ [] ∧ line ≠ "" ∧ quotesScript line then [i + 1] else [] := by
  rw [scriptLines, scriptLines, written_succ h (Nat.zero_le i)]
  cases hw : written lines 0 i with
  | nil => split <;> simp
  | cons first later =>
    by_cases he : line = ""
    · simp [he]
    · by_cases hq : quotesScript line <;> simp [he, hq]

namespace Replay

/-! ## Notes -/

theorem script_step (r : Replay) (line : String) :
    (r.step line).2.script =
      r.script ++ if r.current ≠ none ∧ quotesScript line then [r.nextIndex] else [] := by
  have hmarker : ∀ q : Replay, (q.noteMarker line).script = q.script := by
    intro q
    unfold noteMarker say
    repeat' split
    all_goals rfl
  obtain ⟨state, messages, h⟩ := r.step_snd line
  rw [h]
  show (r.classify line).2.script = _
  unfold classify
  cases r.current with
  | none => simp
  | some e =>
    show ((r.noteScript line).noteMarker line).script = _
    rw [hmarker, noteScript, quotesScript]
    split <;> simp [*]

/-- The replay has noted the lines it has gone through that quote the script, and nothing else. -/
structure Quotes (ls : List String) (r : Replay) : Prop extends r.Begins ls where
  script : r.script = scriptLines ls r.nextIndex

theorem Quotes.congr {ls : List String} {r q : Replay} (h : r.Quotes ls) (begins : q.Begins ls)
    (hposition : q.position = r.position) (hscript : q.script = r.script) : q.Quotes ls where
  toBegins := begins
  script := by
    rw [hscript, nextIndex_congr hposition]
    exact h.script

theorem keeps_quotes (lines : List String) : Keeps (Quotes lines) where
  blank {r rest} hls h := by
    refine ⟨(keeps_begins lines).blank hls h.toBegins, ?_⟩
    rw [h.lines] at hls
    have hs := scriptLines_succ hls
    rw [if_neg (by simp), List.append_nil] at hs
    rw [nextIndex_moveOn, hs]
    exact h.script
  line {r line rest} hls he h := by
    refine ⟨(keeps_begins lines).line hls he h.toBegins, ?_⟩
    rw [h.lines] at hls
    rw [nextIndex_step, nextIndex_moveOn, scriptLines_succ hls, script_step, nextIndex_moveOn]
    refine congrArg₂ _ h.script (if_congr ?_ rfl rfl)
    exact and_congr (not_congr h.begun) (by simp [he])
  ended {r} hls h := by
    refine ⟨(keeps_begins lines).ended hls h.toBegins, ?_⟩
    rw [h.lines] at hls
    show r.script = scriptLines lines (r.lines.length + 1)
    rw [scriptLines, h.lines, written_of_length_le_right (Nat.le_succ _),
      ← written_of_length_le_right (List.drop_eq_nil_iff.1 hls)]
    exact h.script
  ready {r} h := by
    refine h.congr ((keeps_begins lines).ready h.toBegins)
      (by rw [position_dropLogFrame, position_revertOverlay]) ?_
    rw [revertOverlay_snd]
    unfold dropLogFrame
    split <;> rfl
  look {r op} hop h := by
    have hm := (matches_perform State.Alike.refl r hop (.inr fun _ _ h => h)).script
    rw [revertOverlay_snd, revertOverlay_snd] at hm
    exact h.congr ((keeps_begins lines).look hop h.toBegins) (r.position_perform hop) hm

/-! ## Places in the source -/

theorem script_handle (r : Replay) (e : Event) : (r.handle e).script = r.script := by
  obtain ⟨_, _, h⟩ := r.handle_eq e
  rw [h]

theorem frameLine_of_script {r : Replay} {lines : List String} {i : Nat}
    (h : r.script = scriptLines lines i) (n : Nat) :
    r.frameLine n = (r.state.top?.map fun frame => sourceLine lines i frame n).getD n := by
  have hline : r.scriptLine n = quoteOf lines i n := by
    cases n with
    | zero => rfl
    | succ n => rw [scriptLine, quoteOf, h]
  unfold frameLine sourceLine
  cases r.state.top? with
  | none => rfl
  | some frame =>
    rw [hline]
    rfl

theorem messages_classify_of_ne {r : Replay} {line : String} (h : (r.classify line).1 ≠ .other) :
    (r.classify line).2.messages = r.messages := by
  have hscript : (r.noteScript line).messages = r.messages := by
    unfold noteScript
    split <;> rfl
  unfold classify at h ⊢
  cases hc : r.current with
  | none => rfl
  | some e =>
    rw [hc] at h
    show ((r.noteScript line).noteMarker line).messages = _
    rw [← hscript]
    unfold noteMarker
    unfold Event.ofLine at h
    split
    · next a kind b rest hfields =>
      rw [if_neg]
      rintro rfl
      rw [hfields] at h
      exact h rfl
    · rfl

section Step

variable {r : Replay} {line text : String} {lines : List String} {i n : Nat}

theorem step_of_fst {e : Event} (h : (r.step line).1 = e) :
    (r.step line).2 =
      { ((r.classify line).2.echo line e).handle e with current := some e } := by
  rw [← h]
  rfl

theorem state_step_of_statement (he : (r.step line).1 = .statement n)
    (hs : (r.step line).2.script = scriptLines lines i) :
    (r.step line).2.state = { r.state with
      stack := r.state.stack.modifyHead fun frame =>
        { frame with line := sourceLine lines i frame n } } := by
  rw [step_of_fst he] at hs ⊢
  change (((r.classify line).2.echo line (.statement n)).handle (.statement n)).script = _ at hs
  rw [script_handle] at hs
  show ((r.classify line).2.echo line (.statement n)).state.setLine _ = _
  rw [frameLine_of_script hs, state_echo, state_classify, State.top?, State.setLine]
  split
  · next hnil => rw [hnil, List.modifyHead_nil, ← hnil]
  · next frame stack hcons =>
    rw [hcons]
    rfl

/-- The message of debug output. -/
def debugMessage (r : Replay) (line : Nat) (text : String) : Message where
  channel := .console
  content := (r.linesAhead r.config.debugContext).foldl (· ++ "\n" ++ ·) text
  source := r.state.top?.map (·.source)
  line := some (r.frameLine line)

/-- **Debug output writes one message**, once notes are taken of its line. -/
theorem messages_step_debug (he : (r.step line).1 = .debug n text) :
    (r.step line).2.messages = r.messages ++ [(r.classify line).2.debugMessage n text] := by
  have hsilent : (r.classify line).2.messages = r.messages :=
    messages_classify_of_ne (by
      show (r.step line).1 ≠ _
      simp [he])
  have hecho : (r.classify line).2.echo line (.debug n text) = (r.classify line).2 := by
    simp [echo, Event.isDebug]
  rw [step_of_fst he, hecho]
  exact congrArg (· ++ [_]) hsilent

theorem messages_step_of_debug (he : (r.step line).1 = .debug n text)
    (hs : (r.step line).2.script = scriptLines lines i) :
    ∃ m : Message, (r.step line).2.messages = r.messages ++ [m] ∧ m.channel = .console ∧
      m.source = r.state.top?.map (·.source) ∧
      m.line = some ((r.state.top?.map fun frame => sourceLine lines i frame n).getD n) := by
  have hnotes : (r.classify line).2.script = scriptLines lines i := by
    obtain ⟨_, _, hstep⟩ := r.step_snd line
    rw [hstep] at hs
    exact hs
  have hline := frameLine_of_script hnotes n
  rw [state_classify] at hline
  refine ⟨_, messages_step_debug he, rfl, ?_, ?_⟩
  · rw [debugMessage, state_classify]
  · rw [debugMessage, hline]

end Step

/-- **The lines of an inline script.** Whatever is done between its advances, a replay has noted the
numbers of the lines that quote the script among those it has gone through, which are the lines of
the log before its place; the first of them begins the log and is no quote. A statement moves the
current frame to the line it names. When that frame runs the script, this is the line of the log
that quotes the line named, and zero while there is none. Debug output is placed in the same way. -/
theorem script_performAll (config : Config) (resolver : Resolver) (lines : List String)
    (ops : List Operation) :
    let r := fresh config resolver lines
    let q := r.performAll ops
    (q.script = scriptLines lines q.nextIndex ∧ q.script.Pairwise (· < ·)) ∧
    (passagesAlong ops r).map (fun p => (p.line, p.number)) =
      (written lines 0 q.nextIndex).map (fun l => (l.1, l.2 + 1)) ∧
    ∀ p ∈ passagesAlong ops r,
      (∀ n, p.event = .statement n →
        p.after.state = { p.replay.state with
          stack := p.replay.state.stack.modifyHead fun frame =>
            { frame with line := sourceLine lines p.number frame n } }) ∧
      ∀ n text, p.event = .debug n text → ∃ m : Message,
        p.after.messages = p.replay.messages ++ [m] ∧ m.channel = .console ∧
        m.source = p.replay.state.top?.map (·.source) ∧
        m.line = some
          ((p.replay.state.top?.map fun frame => sourceLine lines p.number frame n).getD n) := by
  intro r q
  have hfresh : r.Quotes lines := ⟨begins_fresh config resolver lines, rfl⟩
  obtain ⟨hpassages, hend⟩ := (keeps_quotes lines).run ops hfresh
  refine ⟨⟨hend.script, hend.script ▸ pairwise_scriptLines lines _⟩,
    (places_passagesAlong ops (r := r) (Nat.zero_le _)).1, fun p hp => ?_⟩
  obtain ⟨r', rest, h, hls, hne, hreplay⟩ := hpassages p hp
  have hnoted : p.after.script = scriptLines lines p.number := by
    have hline := (keeps_quotes lines).line hls hne h
    rw [← hreplay] at hline
    rw [Passage.after, hline.script, nextIndex_step]
    rfl
  exact ⟨fun n he => state_step_of_statement he hnoted,
    fun n text he => messages_step_of_debug he hnoted⟩

/-- A log with the run of a script of two lines. -/
def scriptLog : List String :=
  ["62.0 APEX_CODE,FINEST",
    "Execute Anonymous: A.f();",
    "Execute Anonymous: A.g();",
    "",
    "0|CODE_UNIT_STARTED|[EXTERNAL]|execute_anonymous_apex",
    "0|STATEMENT_EXECUTE|[2]",
    "0|METHOD_ENTRY|[2]|1|A.g()",
    "0|USER_DEBUG|[7]|DEBUG|x",
    "0|STATEMENT_EXECUTE|[8]"]

set_option maxRecDepth 100000 in
/-- The second line of the script is shown at the third line of the log, and output of a method at
the line of its class. -/
theorem script_scriptLog :
    let ops := [.advance, .advance, .advance]
    let r := fresh {} (fun _ => none) scriptLog
    (r.performAll ops).script = [2, 3] ∧
    (∃ p ∈ passagesAlong ops r, p.event = .statement 2 ∧
      p.after.state.stack.map (·.line) = [3]) ∧
    ∃ p ∈ passagesAlong ops r, p.event = .debug 7 "x" ∧ ∃ m ∈ p.after.messages, m.line = some 7 := by
  intro ops r
  obtain ⟨⟨hscript, -⟩, -, hpassages⟩ := script_performAll {} (fun _ => none) scriptLog ops
  have hnotes : scriptLines scriptLog (r.performAll ops).nextIndex = [2, 3] := by
    decide +kernel
  obtain ⟨hstatement, hdebug⟩ :
      ((passagesAlong ops r).any fun p => decide (p.event = .statement 2 ∧ p.number = 6 ∧
        p.replay.state.stack.map (·.name) = [inlineScript])) = true ∧
      ((passagesAlong ops r).any fun p => decide (p.event = .debug 7 "x" ∧
        p.replay.state.top?.map (·.name) = some "A.g()")) = true := by
    decide +kernel
  refine ⟨hscript.trans hnotes, ?_, ?_⟩
  · obtain ⟨p, hp, hfacts⟩ := List.any_eq_true.1 hstatement
    obtain ⟨he, hnumber, hname⟩ := of_decide_eq_true hfacts
    refine ⟨p, hp, he, ?_⟩
    obtain ⟨frame, stack, hstack, hframe, hnil⟩ := List.map_eq_cons_iff.1 hname
    have hline : sourceLine scriptLog 6 frame 2 = 3 := by
      rw [sourceLine, if_pos hframe]
      decide +kernel
    rw [(hpassages p hp).1 2 he, hnumber, hstack, List.map_eq_nil_iff.1 hnil]
    simp [hline]
  · obtain ⟨p, hp, hfacts⟩ := List.any_eq_true.1 hdebug
    obtain ⟨he, hname⟩ := of_decide_eq_true hfacts
    obtain ⟨frame, htop, hframe⟩ := Option.map_eq_some_iff.1 hname
    obtain ⟨m, hmessages, -, -, hline⟩ := (hpassages p hp).2 7 "x" he
    have hplace : sourceLine scriptLog p.number frame 7 = 7 := by
      rw [sourceLine, if_neg]
      rw [hframe]
      decide
    rw [htop, Option.map_some, Option.getD_some, hplace] at hline
    exact ⟨p, hp, he, m, by simp [hmessages], hline⟩

end Replay

end Retrace
