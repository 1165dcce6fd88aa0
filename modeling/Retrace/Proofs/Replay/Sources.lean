import Retrace.Proofs.Replay.Folding
import Retrace.Proofs.State.Sources

/-!
# Replays with other sources

Where the code of calls lives is asked of a resolver, and where the log itself lives is configured.
The answers are shown, but nothing that a line does depends on them: of two replays of one log with
other resolvers and configurations the one rebuilds what the other does, says as much, and pauses at
the same places.

* `Message.Corresponds`: messages but for their source and for how much of the log is quoted.
* `Frame.nameless`, `State.nameless`: frames and states without the name of the log.
* `Replay.Agrees`: replays of one log but for their sources; `Replay.Agrees.handle`,
  `Replay.Agrees.step`: events and lines keep them so.
* **`Replay.agrees_advances`**: two replays of one log.
-/

namespace Retrace

/-- A text with lines of the log behind it: `count` of them, from the place `i` on. -/
def quoting (lines : List String) (i count : Nat) (text : String) : String :=
  ((lines.drop i).take count).foldl (· ++ "\n" ++ ·) text

/-- **Messages that differ in their sources** and in how many lines of the log are quoted. -/
inductive Message.Corresponds (lines : List String) (c c' : Config) : Message → Message → Prop
  /-- A complaint. -/
  | complaint (content : String) :
      Corresponds lines c c' { channel := .stderr, content } { channel := .stderr, content }
  /-- Debug output of a line, with the lines of the log from the same place on behind it. -/
  | debug (text : String) (line place : Nat) {source source' : Option Locator}
      (located : source.isSome = source'.isSome) :
      Corresponds lines c c'
        { channel := .console
          content := quoting lines place c.debugContext text
          source
          line := some line }
        { channel := .console
          content := quoting lines place c'.debugContext text
          source := source'
          line := some line }

/-- The frame without its source; the frame of the log also without its name. -/
def Frame.nameless (f : Frame) : Frame :=
  { f with name := if f.id = firstHandle then "" else f.name, source := .unknown }

/-- **The state without the sources of its frames and without the name of the log**, which the frame
of the log has for its name and for its signature. -/
def State.nameless (s : State) : State :=
  { s with
    stack := s.stack.map Frame.nameless
    activations := s.activations.update firstHandle fun a => { a with signature := "" } }

theorem State.nameless_unsourced (s : State) : s.unsourced.nameless = s.nameless := by
  have hframe : Frame.nameless ∘ Frame.unsourced = Frame.nameless := rfl
  unfold nameless unsourced
  rw [List.map_map, hframe]

namespace Replay

/-- The messages that are no echoes. -/
def said (r : Replay) : List Message := r.messages.filter (·.channel ≠ .stdout)

theorem said_say {m : Message} (hm : m.channel ≠ .stdout) (r : Replay) :
    (r.say m).said = r.said ++ [m] := by
  unfold said say
  rw [List.filter_append, List.filter_singleton, decide_eq_true hm]
  rfl

theorem said_echo (r : Replay) (line : String) (e : Event) : (r.echo line e).said = r.said := by
  unfold echo
  split
  · exact (List.filter_append ..).trans (List.append_nil _)
  · rfl

/-- **Replays of one log that differ in their sources**, in their configuration, and in what they
echo. -/
structure Agrees (lines : List String) (c c' : Config) (r q : Replay) : Prop where
  lines_left : r.lines = lines
  lines_right : q.lines = lines
  config_left : r.config = c
  config_right : q.config = c'
  position : r.position = q.position
  current : r.current = q.current
  script : r.script = q.script
  lastMarker : r.lastMarker = q.lastMarker
  state : r.state.unsourced = q.state.unsourced
  said : List.Forall₂ (Message.Corresponds lines c c') r.said q.said

namespace Agrees

variable {lines : List String} {c c' : Config} {r q : Replay}

/-! ## What is read -/

theorem nextIndex (h : Agrees lines c c' r q) : r.nextIndex = q.nextIndex := by
  unfold Replay.nextIndex
  rw [h.position]

theorem top? (h : Agrees lines c c' r q) :
    r.state.top?.map Frame.unsourced = q.state.top?.map Frame.unsourced := by
  rw [← State.top?_unsourced, ← State.top?_unsourced, h.state]

theorem topActivation? (h : Agrees lines c c' r q) :
    r.state.topActivation? = q.state.topActivation? := by
  have htop := congrArg State.topActivation? h.state
  rwa [State.topActivation?_unsourced, State.topActivation?_unsourced] at htop

/-- Frames are asked for their names, never for their sources. -/
theorem frameLine (h : Agrees lines c c' r q) (line : Nat) :
    r.frameLine line = q.frameLine line := by
  have htop := h.top?
  unfold Replay.frameLine scriptLine
  rw [h.script]
  cases hr : r.state.top? with
  | none =>
    rw [hr, Option.map_none, eq_comm, Option.map_eq_none_iff] at htop
    rw [htop]
  | some frame =>
    rw [hr, Option.map_some, eq_comm, Option.map_eq_some_iff] at htop
    obtain ⟨frame', hq, hframe⟩ := htop
    have hname : frame'.unsourced.name = frame.unsourced.name := congrArg Frame.name hframe
    change frame'.name = frame.name at hname
    rw [hq]
    dsimp only
    rw [hname]

/-! ## What changes -/

theorem mapState (h : Agrees lines c c' r q) {f g : State → State}
    (hfg : (f r.state).unsourced = (g q.state).unsourced) :
    Agrees lines c c' (r.mapState f) (q.mapState g) :=
  { h with state := hfg }

theorem say (h : Agrees lines c c' r q) {m m' : Message} (hm : m.Corresponds lines c c' m') :
    Agrees lines c c' (r.say m) (q.say m') := by
  obtain ⟨hr, hq⟩ : m.channel ≠ .stdout ∧ m'.channel ≠ .stdout := by
    cases hm <;> exact ⟨by simp, by simp⟩
  have hsaid : List.Forall₂ (Message.Corresponds lines c c') (r.say m).said (q.say m').said := by
    rw [said_say hr, said_say hq]
    exact List.rel_append h.said (.cons hm .nil)
  exact { h with said := hsaid }

theorem noteScript (h : Agrees lines c c' r q) (line : String) :
    Agrees lines c c' (r.noteScript line) (q.noteScript line) := by
  unfold Replay.noteScript
  split
  · have hscript : r.script ++ [r.nextIndex] = q.script ++ [q.nextIndex] := by
      rw [h.script, h.nextIndex]
    exact { h with script := hscript }
  · exact h

theorem noteMarker (h : Agrees lines c c' r q) (line : String) :
    Agrees lines c c' (r.noteMarker line) (q.noteMarker line) := by
  unfold Replay.noteMarker
  split
  · split
    · split
      · exact { h with lastMarker := rfl }
      · rw [h.nextIndex]
        exact h.say (.complaint _)
    · exact h
  · exact h

theorem classify (h : Agrees lines c c' r q) (line : String) :
    (r.classify line).1 = (q.classify line).1 ∧
      Agrees lines c c' (r.classify line).2 (q.classify line).2 := by
  unfold Replay.classify
  rw [h.current]
  split
  · exact ⟨rfl, h⟩
  · exact ⟨rfl, (h.noteScript line).noteMarker line⟩

theorem echo (h : Agrees lines c c' r q) (line : String) (e : Event) :
    Agrees lines c c' (r.echo line e) (q.echo line e) := by
  have hsaid := h.said
  rw [← said_echo r line e, ← said_echo q line e] at hsaid
  obtain ⟨_, hr⟩ := r.echo_eq line e
  obtain ⟨_, hq⟩ := q.echo_eq line e
  rw [hr, hq] at hsaid ⊢
  exact { h with said := hsaid }

/-! ## Events and lines -/

/-- **Events are handled alike**, but for the beginning of the log. -/
theorem handle (h : Agrees lines c c' r q) {e : Event} (he : e ≠ .logStart) :
    Agrees lines c c' (r.handle e) (q.handle e) := by
  cases e with
  | logStart => exact absurd rfl he
  | call signature =>
    -- the scope of the class is found without sources, and the source of the call is forgotten
    have pushed : ∀ p : Replay, (p.handleCall signature).state.unsourced =
        let registered := p.state.unsourced.statics.register (Signature.className signature)
        ({ p.state.unsourced with statics := registered.2 } : State).pushFrame signature
          (Signature.className signature) registered.1 .unknown 0 :=
      fun _ => State.unsourced_pushFrame ..
    have hstate : (r.handleCall signature).state.unsourced =
        (q.handleCall signature).state.unsourced := by
      rw [pushed, pushed, h.state]
    exact { h with state := hstate }
  | finish signature =>
    simp only [Replay.handle, handleFinish, h.topActivation?]
    split
    · exact h
    · split
      · refine h.mapState ?_
        rw [State.unsourced_popFrame, State.unsourced_popFrame, h.state]
      · exact h
  | statement line =>
    simp only [Replay.handle, handleStatement, h.frameLine]
    refine h.mapState ?_
    rw [State.unsourced_setLine, State.unsourced_setLine, h.state]
  | debug line text =>
    have located := congrArg Option.isSome h.top?
    rw [Option.isSome_map, Option.isSome_map] at located
    refine h.say ?_
    rw [← h.frameLine, linesAhead, linesAhead, h.lines_left, h.lines_right, h.config_left,
      h.config_right, ← h.nextIndex]
    refine .debug text _ r.nextIndex ?_
    rwa [Option.isSome_map, Option.isSome_map]
  | declaration d =>
    refine h.mapState (f := (·.declare d)) (g := (·.declare d)) ?_
    rw [State.unsourced_declare, State.unsourced_declare, h.state]
  | assignment a =>
    refine h.mapState (f := (·.assign a)) (g := (·.assign a)) ?_
    rw [State.unsourced_assign, State.unsourced_assign, h.state]
  | other => exact h

/-- **Lines are stepped through alike**, but for the first one. -/
theorem step (h : Agrees lines c c' r q) (begun : r.current ≠ none) (line : String) :
    Agrees lines c c' (r.step line).2 (q.step line).2 := by
  obtain ⟨hevent, hclassified⟩ := h.classify line
  have he : (r.classify line).1 ≠ .logStart := by
    rw [classify_fst, if_neg (by simpa using begun)]
    exact Event.ofLine_ne_logStart line
  have handled := (hclassified.echo line (r.classify line).1).handle he
  unfold Replay.step
  dsimp only
  rw [← hevent]
  exact { handled with current := rfl }

theorem play (h : Agrees lines c c' r q) (begun : r.current ≠ none) (l : String × Nat) :
    Agrees lines c c' (r.play l) (q.play l) := by
  have moved : Agrees lines c c' { r with position := some l.2 } { q with position := some l.2 } :=
    { h with position := rfl }
  exact moved.step begun l.1

theorem foldl_play (h : Agrees lines c c' r q) (begun : r.current ≠ none)
    (ws : List (String × Nat)) :
    Agrees lines c c' (ws.foldl Replay.play r) (ws.foldl Replay.play q) := by
  induction ws generalizing r q with
  | nil => exact h
  | cons w ws ih => exact ih (h.play begun w) (Option.some_ne_none _)

end Agrees

/-! ## The beginning of the log -/

/-- The state at the beginning of the log. -/
def begunState (config : Config) : State :=
  let (scope, statics) := Statics.empty.createDetached
  ({ State.empty with statics } : State).pushFrame config.logName "" scope
    (.ofPath config.logPath) 1

theorem nameless_begunState (c c' : Config) :
    (begunState c).nameless = (begunState c').nameless := by
  simp [begunState, State.nameless, State.pushFrame, State.empty, Frame.nameless, Handles.empty,
    Handles.update, Handles.create]

/-- Once the frame of the log is gone, nothing is left of its name and of its source. -/
theorem popFrame_begunState (c c' : Config) :
    (begunState c).popFrame = (begunState c').popFrame := by
  simp [begunState, State.popFrame, State.pushFrame, State.empty, Handles.empty, Handles.remove,
    Handles.create]

theorem play_fresh (config : Config) (resolver : Resolver) (lines : List String)
    (l : String × Nat) :
    ∃ messages : List Message, messages.filter (·.channel ≠ .stdout) = [] ∧
      (fresh config resolver lines).play l =
        { fresh config resolver lines with
          position := some l.2
          current := some .logStart
          state := begunState config
          messages } := by
  cases he : config.echo with
  | true =>
    refine ⟨[{ channel := .stdout, content := l.1 }], rfl, ?_⟩
    simp only [play, step, classify, echo, fresh, he]
    rfl
  | false =>
    refine ⟨[], rfl, ?_⟩
    simp only [play, step, classify, echo, fresh, he]
    rfl

theorem agrees_play_fresh (c c' : Config) (resolver resolver' : Resolver) (lines : List String)
    (l : String × Nat) :
    Agrees lines c c' (((fresh c resolver lines).play l).mapState (·.popFrame))
      (((fresh c' resolver' lines).play l).mapState (·.popFrame)) := by
  obtain ⟨ms, hms, hr⟩ := play_fresh c resolver lines l
  obtain ⟨ms', hms', hq⟩ := play_fresh c' resolver' lines l
  have hsaid : List.Forall₂ (Message.Corresponds lines c c') (ms.filter (·.channel ≠ .stdout))
      (ms'.filter (·.channel ≠ .stdout)) := by
    rw [hms, hms']
    exact .nil
  rw [hr, hq]
  exact ⟨rfl, rfl, rfl, rfl, rfl, rfl, rfl, rfl,
    congrArg State.unsourced (popFrame_begunState c c'), hsaid⟩

/-! ## Replays of a log -/

/-- **Replays depend neither on sources nor on the configuration.** After as many advances two
replays of one log are at the same place, have read the same, and have rebuilt states that differ at
most in the sources of frames and in the name of the log. What they said corresponds, message by
message. -/
theorem agrees_advances (c c' : Config) (resolver resolver' : Resolver) (lines : List String)
    (n : Nat) :
    let r := (fresh c resolver lines).advances n
    let q := (fresh c' resolver' lines).advances n
    (r.position = q.position ∧ r.current = q.current ∧ r.script = q.script ∧
      r.lastMarker = q.lastMarker) ∧
    r.state.nameless = q.state.nameless ∧
    List.Forall₂ (Message.Corresponds lines c c') r.said q.said := by
  intro r q
  cases n with
  | zero => exact ⟨⟨rfl, rfl, rfl, rfl⟩, rfl, .nil⟩
  | succ n =>
    cases h : written lines 0 lines.length with
    | nil =>
      have hr : r = _ := advances_of_blank c resolver lines h n
      have hq : q = _ := advances_of_blank c' resolver' lines h n
      rw [hr, hq]
      exact ⟨⟨rfl, rfl, rfl, rfl⟩, rfl, .nil⟩
    | cons first later =>
      have gone := agrees_play_fresh c c' resolver resolver' lines first
      cases n with
      | zero =>
        -- the frames of the log are still there
        have hr : r = _ := (advances_of_written c resolver lines h 0).1
        have hq : q = _ := (advances_of_written c' resolver' lines h 0).1
        have hstate : r.state.nameless = q.state.nameless := by
          obtain ⟨_, -, hplay⟩ := play_fresh c resolver lines first
          obtain ⟨_, -, hplay'⟩ := play_fresh c' resolver' lines first
          rw [hr, hq, hplay, hplay']
          exact nameless_begunState c c'
        refine ⟨?_, hstate, ?_⟩
        · rw [hr, hq]
          exact ⟨gone.position, gone.current, gone.script, gone.lastMarker⟩
        · rw [hr, hq]
          exact gone.said
      | succ n =>
        have hr : r = _ := (advances_of_written c resolver lines h n).2
        have hq : q = _ := (advances_of_written c' resolver' lines h n).2
        have all := gone.foldl_play (Option.some_ne_none _)
          (written lines (first.2 + 1) (stop lines (first.2 + 1) n + 1))
        have hstate := congrArg State.nameless all.state
        rw [State.nameless_unsourced, State.nameless_unsourced] at hstate
        rw [hr, hq]
        exact ⟨⟨rfl, all.current, all.script, all.lastMarker⟩, hstate, all.said⟩

end Replay

end Retrace
