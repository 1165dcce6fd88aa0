import Retrace.Proofs.Replay.FrameTable

/-!
# Advances fold over the log

A replay pauses at the first line of the log that is not empty, and at each statement behind it. The
pauses only cut the way into pieces: what a replay has rebuilt at a pause is what one pass over the
lines up to there gives, each line classified and handled in turn. Behind the last line nothing
happens any more.

* `written`, `stops`: the lines that count, and where advances come to rest.
* `Replay.play`, `Replay.playAll`: what one line does, and the pass over all lines up to a place.
* `Replay.consume_of_begun`: going through lines up to a pause is part of the pass.
* `Replay.advances_of_gone`: so are any number of advances.
* **`Replay.advances_eq_playAll`**: the places of the advances of a fresh replay, its states, and
  what it echoes.
-/

namespace Retrace

/-- Whether the event is an executed statement. -/
def Event.isStatement : Event → Bool
  | .statement _ => true
  | _ => false

/-- The lines from the place `i` on and before `j` that are not empty, with their places. -/
def written (lines : List String) (i j : Nat) : List (String × Nat) :=
  ((lines.zipIdx.take j).drop i).filter fun l => l.1 ≠ ""

/-- The places of the statements among lines. -/
def statements (ws : List (String × Nat)) : List Nat :=
  (ws.filter fun l => (Event.ofLine l.1).isStatement).map Prod.snd

/-- Where advances come to rest: at the first line that is not empty, at each statement behind it,
and behind the last line. -/
def stops (lines : List String) : List Nat :=
  match written lines 0 lines.length with
  | [] => [lines.length]
  | first :: later => first.2 :: (statements later ++ [lines.length])

/-- The lines that are echoed: all but debug output. The first line begins the log, whatever it
holds. -/
def echoes : List (String × Nat) → List String
  | [] => []
  | first :: later =>
    first.1 :: (later.filter fun l => !(Event.ofLine l.1).isDebug).map Prod.fst

/-! ## Lines that are not empty -/

section Written

variable {lines rest : List String} {line : String} {i j k : Nat}

theorem written_of_le (h : j ≤ i) : written lines i j = [] := by
  have hlen : (lines.zipIdx.take j).length ≤ i := by
    rw [List.length_take]
    omega
  rw [written, List.drop_of_length_le hlen, List.filter_nil]

theorem written_of_length_le (h : lines.length ≤ i) : written lines i j = [] := by
  have hlen : (lines.zipIdx.take j).length ≤ i := by
    rw [List.length_take, List.length_zipIdx]
    omega
  rw [written, List.drop_of_length_le hlen, List.filter_nil]

theorem written_cons (h : lines.drop i = line :: rest) (hij : i < j) :
    written lines i j =
      if line = "" then written lines (i + 1) j else (line, i) :: written lines (i + 1) j := by
  have hlt := lt_length_of_drop h
  have hline : lines[i] = line := by
    rw [List.drop_eq_getElem_cons hlt] at h
    exact (List.cons.inj h).1
  have hcons : (lines.zipIdx.take j).drop i = (line, i) :: (lines.zipIdx.take j).drop (i + 1) := by
    have hlen : i < (lines.zipIdx.take j).length := by
      rw [List.length_take, List.length_zipIdx]
      omega
    rw [List.drop_eq_getElem_cons hlen, List.getElem_take, List.getElem_zipIdx, hline,
      Nat.zero_add]
  rw [written, hcons, List.filter_cons]
  split <;> simp_all [written]

theorem written_append (hij : i ≤ j) (hjk : j ≤ k) :
    written lines i j ++ written lines j k = written lines i k := by
  rw [written, written, written, ← List.filter_append]
  congr 1
  rw [List.drop_take, List.drop_take, List.drop_take]
  have hk : k - i = (j - i) + (k - j) := by omega
  have hj : i + (j - i) = j := by omega
  rw [hk, List.take_add, List.drop_drop, hj]

theorem mem_written {l : String × Nat} (h : l ∈ written lines i j) :
    i ≤ l.2 ∧ l.2 < lines.length := by
  have hmem : l ∈ (lines.zipIdx.take j).drop i := (List.mem_filter.1 h).1
  rw [List.drop_take] at hmem
  obtain ⟨n, hn⟩ := List.mem_iff_getElem?.1 ((List.take_sublist _ _).subset hmem)
  rw [List.getElem?_drop, List.getElem?_zipIdx, Option.map_eq_some_iff] at hn
  obtain ⟨line, hline, rfl⟩ := hn
  have hlt := (List.getElem?_eq_some_iff.1 hline).1
  exact ⟨by simp, by simpa using hlt⟩

theorem written_of_first {first : String × Nat} {later : List (String × Nat)}
    (h : written lines i lines.length = first :: later) (hj : first.2 < j) :
    written lines i j = first :: written lines (first.2 + 1) j := by
  generalize hls : lines.drop i = ls
  induction ls generalizing i with
  | nil =>
    have hi : lines.length ≤ i := List.drop_eq_nil_iff.1 hls
    rw [written_of_length_le hi] at h
    cases h
  | cons line rest ih =>
    have hfirst : i ≤ first.2 ∧ first.2 < lines.length := mem_written (h ▸ List.mem_cons_self)
    have hi : i < lines.length := by omega
    have hrest := drop_succ_of_drop hls
    rw [written_cons hls hi] at h
    rw [written_cons hls (by omega)]
    split at h
    · next he =>
      rw [if_pos he]
      exact ih h hrest
    · next he =>
      rw [if_neg he]
      obtain ⟨rfl, -⟩ := List.cons.inj h
      rfl

end Written

/-! ## Statements -/

/-- The place of the statement with the index `n` among those from `i` on; the end of the log when
there are fewer. -/
def stop (lines : List String) (i n : Nat) : Nat :=
  (statements (written lines i lines.length))[n]?.getD lines.length

section Stop

variable {lines rest : List String} {line : String} {i : Nat}

theorem stop_of_length_le (h : lines.length ≤ i) (n : Nat) : stop lines i n = lines.length := by
  rw [stop, written_of_length_le h]
  rfl

theorem statements_cons (h : lines.drop i = line :: rest) :
    statements (written lines i lines.length) =
      if line ≠ "" ∧ (Event.ofLine line).isStatement then
        i :: statements (written lines (i + 1) lines.length)
      else statements (written lines (i + 1) lines.length) := by
  have hlt := lt_length_of_drop h
  rw [written_cons h hlt]
  by_cases he : line = ""
  · simp [he]
  · rw [if_neg he, statements, statements, List.filter_cons]
    by_cases hs : (Event.ofLine line).isStatement <;> simp [he, hs]

theorem stop_bounds (h : i ≤ lines.length) (n : Nat) :
    i ≤ stop lines i n ∧ stop lines i n ≤ lines.length := by
  unfold stop
  cases hn : (statements (written lines i lines.length))[n]? with
  | none => exact ⟨h, Nat.le_refl _⟩
  | some p =>
    have hp : p ∈ statements (written lines i lines.length) := List.mem_of_getElem? hn
    obtain ⟨l, hl, rfl⟩ := List.mem_map.1 hp
    have := mem_written (List.mem_filter.1 hl).1
    exact ⟨this.1, Nat.le_of_lt this.2⟩

theorem statements_behind (lines : List String) (i : Nat) :
    statements (written lines (stop lines i 0 + 1) lines.length) =
      (statements (written lines i lines.length)).tail := by
  generalize hls : lines.drop i = ls
  induction ls generalizing i with
  | nil =>
    have hi : lines.length ≤ i := List.drop_eq_nil_iff.1 hls
    rw [stop_of_length_le hi, written_of_length_le hi, written_of_length_le (Nat.le_succ _)]
    rfl
  | cons line rest ih =>
    have hrest := drop_succ_of_drop hls
    have hs := statements_cons hls
    unfold stop
    rw [hs]
    split
    · simp
    · exact ih (i + 1) hrest

theorem stop_succ (lines : List String) (i n : Nat) :
    stop lines i (n + 1) = stop lines (stop lines i 0 + 1) n := by
  unfold stop
  rw [← List.getElem?_tail, ← statements_behind]
  rfl

theorem stop_zero_le (lines : List String) (i n : Nat) : stop lines i 0 ≤ stop lines i n := by
  cases n with
  | zero => exact Nat.le_refl _
  | succ n =>
    rw [stop_succ]
    by_cases h : stop lines i 0 + 1 ≤ lines.length
    · exact Nat.le_of_lt (stop_bounds h n).1
    · rw [stop_of_length_le (i := stop lines i 0 + 1) (by omega)]
      by_cases hi : i ≤ lines.length
      · exact (stop_bounds hi 0).2
      · exact Nat.le_of_eq (stop_of_length_le (by omega) 0)

theorem stops_sublist (lines : List String) :
    (stops lines).Sublist (List.range (lines.length + 1)) := by
  unfold stops
  split
  · exact List.singleton_sublist.2 (by simp)
  · next first later h =>
    have hsub : (first :: later.filter fun l => (Event.ofLine l.1).isStatement).Sublist
        lines.zipIdx := by
      refine (List.filter_sublist.cons_cons first).trans ?_
      rw [← h]
      exact List.filter_sublist.trans ((List.drop_sublist ..).trans (List.take_sublist ..))
    have hplaces : lines.zipIdx.map Prod.snd = List.range lines.length := by
      rw [List.zipIdx_map_snd, List.range_eq_range']
    rw [List.range_succ, ← hplaces]
    exact (hsub.map Prod.snd).append_right _

theorem pairwise_stops (lines : List String) : (stops lines).Pairwise (· < ·) :=
  List.pairwise_lt_range.sublist (stops_sublist lines)

theorem getLast?_stops (lines : List String) : (stops lines).getLast? = some lines.length := by
  unfold stops
  split
  · rfl
  · rw [← List.cons_append, List.getLast?_concat]

theorem getD_eq_last_iff {ns : List Nat} {e : Nat} (increasing : ns.Pairwise (· < ·))
    (last : ns.getLast? = some e) (n : Nat) : ns[n]?.getD e = e ↔ ns.length ≤ n + 1 := by
  rw [List.getLast?_eq_getElem?] at last
  obtain ⟨hlast, he⟩ := List.getElem?_eq_some_iff.1 last
  rcases Nat.lt_or_ge n ns.length with hn | hn
  · rw [List.getElem?_eq_getElem hn, Option.getD_some]
    constructor
    · intro heq
      refine Nat.le_of_not_lt fun hlt => ?_
      have := List.pairwise_iff_getElem.1 increasing n (ns.length - 1) hn hlast (by omega)
      omega
    · intro hle
      have hn' : n = ns.length - 1 := by omega
      subst hn'
      exact he
  · rw [List.getElem?_eq_none hn]
    exact iff_of_true rfl (by omega)

end Stop

namespace Replay

/-! ## Playing lines -/

/-- What a line does, at its place. -/
def play (r : Replay) (l : String × Nat) : Replay :=
  (({ r with position := some l.2 } : Replay).step l.1).2

/-- One pass over lines. The frame of the log goes behind the first of them, once the replay has
gone on from there. -/
def playAll (r : Replay) (goneOn : Bool) : List (String × Nat) → Replay
  | [] => r
  | first :: later =>
    later.foldl play (if goneOn then (r.play first).mapState (·.popFrame) else r.play first)

/-- The place of a replay does not matter to the lines it plays. -/
theorem foldl_play_position (r : Replay) (p : Option Nat) (q : Nat) (ws : List (String × Nat)) :
    ({ ws.foldl play { r with position := p } with position := some q } : Replay) =
      { ws.foldl play r with position := some q } := by
  cases ws with
  | nil => rfl
  | cons w ws => rfl

theorem eq_of_position {r : Replay} {p : Option Nat} (h : r.position = p) :
    ({ r with position := p } : Replay) = r := by
  rw [← h]

theorem step_fst_of_begun {r : Replay} (h : r.current ≠ none) (line : String) :
    (r.step line).1 = Event.ofLine line := by
  show (r.classify line).1 = _
  rw [classify_fst, if_neg (by simpa using h)]

theorem pauses_ofLine (line : String) :
    (Event.ofLine line).pauses = (Event.ofLine line).isStatement := by
  have h := Event.ofLine_ne_logStart line
  cases he : Event.ofLine line <;> simp_all [Event.pauses, Event.isStatement]

theorem position_play (r : Replay) (l : String × Nat) : (r.play l).position = some l.2 :=
  position_step ..

theorem lines_play (r : Replay) (l : String × Nat) : (r.play l).lines = r.lines :=
  lines_step ..

theorem saved_play (r : Replay) (l : String × Nat) : (r.play l).saved = r.saved :=
  saved_step ..

theorem current_play {r : Replay} (h : r.current ≠ none) (l : String × Nat) :
    (r.play l).current = some (Event.ofLine l.1) :=
  congrArg some (step_fst_of_begun (r := { r with position := some l.2 }) h l.1)

theorem current_foldl_play {r : Replay} (h : r.current ≠ none) {ws : List (String × Nat)}
    (hws : ws ≠ []) : ∃ line, (ws.foldl play r).current = some (Event.ofLine line) := by
  induction ws generalizing r with
  | nil => exact absurd rfl hws
  | cons w ws ih =>
    have hw := current_play h w
    cases ws with
    | nil => exact ⟨w.1, hw⟩
    | cons w' ws => exact ih (by simp [hw]) (by simp)

/-! ## Going through lines -/

/-- **Going through lines up to a pause** plays the lines up to the next statement, or all of
them. -/
theorem consume_of_begun {ls : List String} {r : Replay} (hls : r.lines.drop r.nextIndex = ls)
    (begun : r.current ≠ none) :
    consume ls r =
      { (written r.lines r.nextIndex (stop r.lines r.nextIndex 0 + 1)).foldl play r with
        position := some (stop r.lines r.nextIndex 0) } := by
  induction ls generalizing r with
  | nil =>
    have hi : r.lines.length ≤ r.nextIndex := List.drop_eq_nil_iff.1 hls
    rw [stop_of_length_le hi, written_of_length_le hi]
    rfl
  | cons line rest ih =>
    obtain ⟨hrest, hstep⟩ := drop_moveOn hls
    have hlt := lt_length_of_drop hls
    have hstop := (stop_bounds (Nat.le_of_lt hlt) 0).1
    have hstop' := (stop_bounds (i := r.nextIndex + 1) hlt 0).1
    have hplay : (r.moveOn.step line).2 = r.play (line, r.nextIndex) := rfl
    have hevent : (r.moveOn.step line).1 = Event.ofLine line :=
      step_fst_of_begun (r := r.moveOn) begun line
    have hnext : (r.play (line, r.nextIndex)).nextIndex = r.nextIndex + 1 := nextIndex_step ..
    rw [written_cons hls (Nat.lt_succ_of_le hstop)]
    -- the next statement is this line, or it is the next one behind it
    have hs : stop r.lines r.nextIndex 0 =
        if line ≠ "" ∧ (Event.ofLine line).isStatement then r.nextIndex
        else stop r.lines (r.nextIndex + 1) 0 := by
      unfold stop
      rw [statements_cons hls]
      split <;> rfl
    simp only [consume, hevent, hplay, pauses_ofLine]
    by_cases he : line = ""
    · have h := ih hrest begun
      rw [nextIndex_moveOn, lines_moveOn] at h
      rw [if_neg (by simp [he])] at hs
      rw [if_pos he, if_pos he, hs, h]
      exact foldl_play_position ..
    · rw [if_neg he, if_neg he]
      by_cases hp : (Event.ofLine line).isStatement
      · rw [if_pos ⟨he, hp⟩] at hs
        rw [if_pos hp, hs, written_of_le (Nat.le_refl _)]
        exact (eq_of_position (position_play ..)).symm
      · have h := ih (hplay ▸ hstep) (by simp [current_play begun])
        rw [hnext, lines_play] at h
        rw [if_neg (by simp [hp])] at hs
        rw [if_neg hp, hs, h]
        rfl

/-- The first line that is not empty begins the log, and a replay pauses there. -/
theorem consume_of_fresh {ls : List String} {r : Replay} (hls : r.lines.drop r.nextIndex = ls)
    (fresh : r.current = none) :
    consume ls r =
      match written r.lines r.nextIndex r.lines.length with
      | [] => { r with position := some r.lines.length }
      | first :: _ => r.play first := by
  induction ls generalizing r with
  | nil =>
    rw [written_of_length_le (List.drop_eq_nil_iff.1 hls)]
    rfl
  | cons line rest ih =>
    obtain ⟨hrest, -⟩ := drop_moveOn hls
    have hlt := lt_length_of_drop hls
    rw [consume, written_cons hls hlt]
    split
    · have h := ih hrest fresh
      rw [lines_moveOn, nextIndex_moveOn] at h
      rw [h]
      split <;> rfl
    · have hevent : (r.moveOn.step line).1 = .logStart := by
        have := r.moveOn.classify_fst line
        rw [show r.moveOn.current = none from fresh] at this
        exact this
      simp only [hevent]
      rfl

/-! ## Advances -/

theorem dropLogFrame_of_ne {r : Replay} (h : r.current ≠ some .logStart) : r.dropLogFrame = r := by
  rw [dropLogFrame, if_neg h]

theorem dropLogFrame_of_nil {r : Replay} (h : r.state.stack = []) : r.dropLogFrame = r := by
  have hpop : r.state.popFrame = r.state := by
    unfold State.popFrame
    rw [h]
  unfold dropLogFrame mapState
  split
  · show ({ r with state := r.state.popFrame } : Replay) = r
    rw [hpop]
  · rfl

theorem dropLogFrame_position (r : Replay) (p : Option Nat) :
    ({ r with position := p } : Replay).dropLogFrame = { r.dropLogFrame with position := p } := by
  unfold dropLogFrame
  split <;> rfl

theorem revertOverlay_of_not_saved {r : Replay} (h : r.saved = none) : r.revertOverlay.2 = r := by
  unfold revertOverlay
  rw [h]

theorem advance_of_not_saved {r : Replay} (h : r.saved = none) :
    r.advance = consume (r.lines.drop r.nextIndex) r.dropLogFrame := by
  simp only [advance, revertOverlay_of_not_saved h, nextIndex, lines_dropLogFrame,
    position_dropLogFrame]

theorem advance_of_ended {r : Replay} (h : r.position = some r.lines.length) :
    r.advance = r.revertOverlay.2.dropLogFrame := by
  have hlines : r.revertOverlay.2.dropLogFrame.lines = r.lines := by
    rw [lines_dropLogFrame, lines_revertOverlay]
  have hpos : r.revertOverlay.2.dropLogFrame.position = some r.lines.length := by
    rw [position_dropLogFrame, position_revertOverlay, h]
  have hdrop : r.revertOverlay.2.dropLogFrame.lines.drop r.revertOverlay.2.dropLogFrame.nextIndex =
      [] := by
    rw [nextIndex, hpos, hlines]
    simp
  rw [advance, hdrop]
  exact eq_of_position (by rw [hpos, hlines])

theorem Rests.advance_of_ended {r : Replay} (h : r.Rests) (hend : r.position = some r.lines.length) :
    r.advance = r.revertOverlay.2 := by
  rw [Replay.advance_of_ended hend]
  by_cases hlog : r.current = some .logStart
  · have hnone := h.live.tabled.framed.logGone_iff.1 (h.ended hend)
    have hall := h.live.log
    refine dropLogFrame_of_nil ?_
    rw [state_revertOverlay]
    refine List.eq_nil_iff_forall_not_mem.2 fun frame hf => ?_
    exact hnone frame hf ((hall frame hf).2 hlog)
  · exact dropLogFrame_of_ne (by rwa [current_revertOverlay])

theorem advances_of_advance_eq {r : Replay} (h : r.advance = r) (n : Nat) : r.advances n = r := by
  induction n with
  | zero => rfl
  | succ n ih => rw [advances, h, ih]

/-- **Advances go on playing lines**, once the frame of the log is gone. -/
theorem advances_of_gone {r : Replay} (begun : r.current ≠ none) (bare : r.saved = none)
    (gone : r.dropLogFrame = r) (n : Nat) :
    r.advances (n + 1) =
      { (written r.lines r.nextIndex (stop r.lines r.nextIndex n + 1)).foldl play r with
        position := some (stop r.lines r.nextIndex n) } := by
  have hfirst : r.advance =
      { (written r.lines r.nextIndex (stop r.lines r.nextIndex 0 + 1)).foldl play r with
        position := some (stop r.lines r.nextIndex 0) } := by
    rw [advance_of_not_saved bare, gone]
    exact consume_of_begun rfl begun
  induction n generalizing r with
  | zero => exact hfirst
  | succ n ih =>
    have hlines : r.advance.lines = r.lines := r.lines_advance
    have hnext : r.advance.nextIndex = stop r.lines r.nextIndex 0 + 1 := by
      rw [hfirst]
      rfl
    -- an advance that plays no line leaves everything but the place
    obtain ⟨hbegun, hgone⟩ : r.advance.current ≠ none ∧ r.advance.dropLogFrame = r.advance := by
      rw [hfirst]
      by_cases hws : written r.lines r.nextIndex (stop r.lines r.nextIndex 0 + 1) = []
      · rw [hws, List.foldl_nil, dropLogFrame_position, gone]
        exact ⟨begun, rfl⟩
      · obtain ⟨line, hcurrent⟩ := current_foldl_play begun hws
        have hne := Event.ofLine_ne_logStart line
        rw [dropLogFrame_position, dropLogFrame_of_ne (by simpa [hcurrent] using hne)]
        exact ⟨by simp [hcurrent], rfl⟩
    have hbare := r.saved_advance
    have h := ih hbegun hbare hgone (by
      rw [advance_of_not_saved hbare, hgone]
      exact consume_of_begun rfl hbegun)
    rw [hnext, hlines, ← stop_succ, hfirst] at h
    rw [advances, hfirst, h, foldl_play_position, ← List.foldl_append]
    by_cases hi : r.nextIndex ≤ r.lines.length
    · rw [written_append (Nat.le_succ_of_le (stop_bounds hi 0).1)
        (Nat.succ_le_succ (stop_zero_le ..))]
    · have hi' : r.lines.length ≤ r.nextIndex := by omega
      rw [stop_of_length_le hi', written_of_length_le hi', written_of_length_le hi',
        written_of_length_le (Nat.le_succ _)]
      rfl

/-! ## What is echoed -/

/-- The messages that go where output of the program goes. -/
def printed (r : Replay) : List Message := r.messages.filter (·.channel = .stdout)

@[simp] theorem printed_handle (r : Replay) (e : Event) : (r.handle e).printed = r.printed := by
  cases e with
  | finish signature =>
    simp only [handle, handleFinish]
    repeat' split
    all_goals rfl
  | debug line text => simp [handle, handleDebug, say, printed]
  | _ => rfl

@[simp] theorem printed_classify (r : Replay) (line : String) :
    (r.classify line).2.printed = r.printed := by
  unfold classify noteMarker noteScript say
  repeat' split
  all_goals simp [printed]

theorem config_classify (r : Replay) (line : String) :
    (r.classify line).2.config = r.config := by
  obtain ⟨_, _, _, h⟩ := r.classify_snd line
  rw [h]

theorem config_play (r : Replay) (l : String × Nat) : (r.play l).config = r.config := by
  obtain ⟨_, _, hstep⟩ := ({ r with position := some l.2 } : Replay).step_snd l.1
  rw [play, hstep]
  exact config_classify ..

theorem printed_echo (r : Replay) (line : String) (e : Event) :
    (r.echo line e).printed = r.printed ++
      if r.config.echo && !e.isDebug then [{ channel := .stdout, content := line }] else [] := by
  unfold echo
  split <;> simp [say, printed]

theorem printed_play (r : Replay) (l : String × Nat) :
    (r.play l).printed = r.printed ++
      if r.config.echo && !(if r.current.isNone then Event.logStart else Event.ofLine l.1).isDebug
      then [{ channel := .stdout, content := l.1 }] else [] := by
  have hstep : ∀ q : Replay, (q.step l.1).2.printed =
      ((q.classify l.1).2.echo l.1 (q.classify l.1).1).printed := fun q => printed_handle _ _
  rw [play, hstep, printed_echo, classify_fst, config_classify, printed_classify]
  rfl

theorem printed_foldl_play {r : Replay} (begun : r.current ≠ none) (ws : List (String × Nat)) :
    (ws.foldl play r).printed = r.printed ++
      if r.config.echo then
        (ws.filter fun l => !(Event.ofLine l.1).isDebug).map fun l =>
          { channel := .stdout, content := l.1 }
      else [] := by
  induction ws generalizing r with
  | nil => simp
  | cons w ws ih =>
    have hc : (r.play w).current ≠ none := by simp [current_play begun]
    have hnone : r.current.isNone = false := by simpa [Option.isSome_iff_ne_none] using begun
    rw [List.foldl_cons, ih hc, printed_play, config_play, hnone]
    cases r.config.echo <;> cases hd : (Event.ofLine w.1).isDebug <;> simp [hd]

theorem printed_playAll {r : Replay} (fresh : r.current = none) (goneOn : Bool)
    (ws : List (String × Nat)) :
    (r.playAll goneOn ws).printed = r.printed ++
      if r.config.echo then (echoes ws).map fun line => { channel := .stdout, content := line }
      else [] := by
  cases ws with
  | nil => simp [playAll, echoes]
  | cons first later =>
    have hfirst := r.printed_play first
    have hbegun : (r.play first).current ≠ none := Option.some_ne_none _
    have hnone : r.current.isNone = true := by simp [fresh]
    rw [hnone] at hfirst
    -- the frame of the log does not matter here
    have hgone : ∀ q : Replay, q.printed = (r.play first).printed →
        q.current = (r.play first).current → q.config = (r.play first).config →
        (later.foldl play q).printed = r.printed ++
          if r.config.echo then
            (echoes (first :: later)).map fun line => { channel := .stdout, content := line }
          else [] := by
      intro q hprinted hcurrent hconfig
      rw [printed_foldl_play (hcurrent ▸ hbegun), hprinted, hfirst, hconfig, config_play]
      cases r.config.echo <;> simp [echoes, Event.isDebug]
    cases goneOn with
    | true => exact hgone _ rfl rfl rfl
    | false => exact hgone _ rfl rfl rfl

/-! ## Fresh replays -/

section Fresh

variable (config : Config) (resolver : Resolver) (lines : List String)

theorem advances_of_blank (h : written lines 0 lines.length = []) (n : Nat) :
    (fresh config resolver lines).advances (n + 1) =
      { fresh config resolver lines with position := some lines.length } := by
  have hfirst : (fresh config resolver lines).advance =
      { fresh config resolver lines with position := some lines.length } := by
    have hc := consume_of_fresh (r := fresh config resolver lines) rfl rfl
    have h' : written (fresh config resolver lines).lines (fresh config resolver lines).nextIndex
      (fresh config resolver lines).lines.length = [] := h
    rw [h'] at hc
    exact hc
  have hfixed := advance_of_ended
    (r := { fresh config resolver lines with position := some lines.length }) rfl
  rw [advances, hfirst]
  exact advances_of_advance_eq hfixed n

/-- The first advance plays the first line, and later ones go on from there without the frame of
the log. -/
theorem advances_of_written {first : String × Nat} {later : List (String × Nat)}
    (h : written lines 0 lines.length = first :: later) (n : Nat) :
    let r := fresh config resolver lines
    let gone := (r.play first).mapState (·.popFrame)
    let p := stop lines (first.2 + 1) n
    r.advances 1 = r.play first ∧
      r.advances (n + 2) =
        { (written lines (first.2 + 1) (p + 1)).foldl play gone with position := some p } := by
  intro r gone p
  have hfirst : r.advance = r.play first := by
    have hc := consume_of_fresh (r := r) rfl rfl
    have h' : written r.lines r.nextIndex r.lines.length = first :: later := h
    rw [h'] at hc
    exact hc
  have hdrop : (r.play first).dropLogFrame = gone := if_pos rfl
  have hlines : gone.lines = lines := lines_play r first
  have hposition : gone.position = some first.2 := position_play r first
  have hnext : gone.nextIndex = first.2 + 1 := by
    rw [nextIndex, hposition]
    rfl
  -- the frame of the log was the only one
  have hstack : gone.state.stack = [] := by
    obtain ⟨q, hq, hq'⟩ := handled_step { r with position := some first.2 } first.1
    dsimp only at hq hq'
    show (r.play first).state.popFrame.stack = []
    rw [play, ← hq']
    exact congrArg State.stack hq
  have hgone : gone.dropLogFrame = gone := dropLogFrame_of_nil hstack
  have hbare : gone.saved = none := saved_play r first
  have hsame : (r.play first).advance = gone.advance := by
    rw [advance_of_not_saved (r := r.play first) hbare, advance_of_not_saved hbare, hdrop, hgone]
    rfl
  have hbegun : gone.current ≠ none := Option.some_ne_none _
  have hall := advances_of_gone hbegun hbare hgone n
  rw [hlines, hnext] at hall
  refine ⟨hfirst, ?_⟩
  rw [advances, hfirst, advances, hsame]
  exact hall

/-- Advances come to rest at the stops, as a single pass over the lines does there. -/
theorem advances_eq_pass (n : Nat) :
    let r := fresh config resolver lines
    let p := (stops lines)[n]?.getD lines.length
    r.advances (n + 1) =
      { r.playAll (0 < n) (written lines 0 (p + 1)) with position := some p } := by
  intro r p
  cases h : written lines 0 lines.length with
  | nil =>
    have hstops : stops lines = [lines.length] := by rw [stops, h]
    have hp : p = lines.length := by
      show (stops lines)[n]?.getD lines.length = _
      rw [hstops]
      cases n <;> rfl
    have hnone : written lines 0 (lines.length + 1) = [] := by
      rw [← written_append (Nat.zero_le lines.length) (Nat.le_succ _), h,
        written_of_length_le (Nat.le_refl _)]
      rfl
    rw [hp, hnone, playAll]
    exact advances_of_blank config resolver lines h n
  | cons first later =>
    obtain ⟨hfirst, hlater⟩ := advances_of_written config resolver lines h (n - 1)
    have hlt : first.2 < lines.length := (mem_written (h ▸ List.mem_cons_self)).2
    have hbehind : later = written lines (first.2 + 1) lines.length :=
      List.tail_eq_of_cons_eq (h.symm.trans (written_of_first h hlt))
    have hstops : stops lines = first.2 :: (statements later ++ [lines.length]) := by
      rw [stops, h]
    cases n with
    | zero =>
      have hp : p = first.2 := by
        show (stops lines)[0]?.getD lines.length = _
        rw [hstops]
        rfl
      rw [hp, written_of_first h (Nat.lt_succ_self _), written_of_le (Nat.le_refl _)]
      exact hfirst.trans (eq_of_position (position_play ..)).symm
    | succ n =>
      have hp : p = stop lines (first.2 + 1) n := by
        show (stops lines)[n + 1]?.getD lines.length = _
        rw [hstops, stop, ← hbehind, List.getElem?_cons_succ]
        rcases Nat.lt_or_ge n (statements later).length with hn | hn
        · rw [List.getElem?_append_left hn]
        · rw [List.getElem?_append_right hn, List.getElem?_eq_none hn]
          cases n - (statements later).length <;> rfl
      have hle := (stop_bounds (i := first.2 + 1) hlt n).1
      rw [hp, written_of_first h (by omega)]
      exact hlater

end Fresh

/-- **Advances fold over the log.** The advances of a fresh replay come to rest at the stops of the
log, one after the other, and at its end from then on. Each time the replay is the one that a single
pass over the lines up to there gives, and has echoed these lines. Whatever else the user did, an
advance at the end of the log at most takes an overlay off. -/
theorem advances_eq_playAll (config : Config) (resolver : Resolver) (lines : List String) :
    let r := fresh config resolver lines
    let p := fun n => (stops lines)[n]?.getD lines.length
    ((stops lines).Pairwise (· < ·) ∧ (stops lines).getLast? = some lines.length) ∧
    (∀ n, (r.advances (n + 1)).position = some (p n) ∧
      (p n = lines.length ↔ (stops lines).length ≤ n + 1)) ∧
    (∀ n, r.advances (n + 1) =
      { r.playAll (0 < n) (written lines 0 (p n + 1)) with position := some (p n) }) ∧
    (∀ n, (r.advances (n + 1)).printed =
      if config.echo then
        (echoes (written lines 0 (p n + 1))).map fun line => { channel := .stdout, content := line }
      else []) ∧
    ∀ ops, let q := r.performAll ops
      q.position = some lines.length → q.advance = q.revertOverlay.2 := by
  intro r p
  have hpass := advances_eq_pass config resolver lines
  have hp : ∀ n, p n = lines.length ↔ (stops lines).length ≤ n + 1 := fun n =>
    getD_eq_last_iff (pairwise_stops lines) (getLast?_stops lines) n
  refine ⟨⟨pairwise_stops lines, getLast?_stops lines⟩, fun n => ⟨?_, hp n⟩, hpass, fun n => ?_,
    fun ops => ?_⟩
  · rw [hpass]
  · rw [hpass]
    exact printed_playAll (r := r) rfl _ _
  · intro q hend
    have hlines : q.lines = lines :=
      invariant_performAll (I := fun q => q.lines = lines) ops
        (fun op _ h => (lines_perform _ op).trans h) rfl
    exact (rests_performAll config resolver lines ops).advance_of_ended (by rw [hend, hlines])

/-- A log with empty lines, two statements, and a snapshot captured at the second. -/
def gappedLog : List String :=
  ["",
    "62.0 APEX_CODE,FINEST",
    "",
    "0|METHOD_ENTRY|[1]|1|A.f()",
    "0|STATEMENT_EXECUTE|[2]",
    "0|USER_DEBUG|[2]|DEBUG|x",
    "0|HEAP_DUMP|[3]|s|A||3",
    "0|STATEMENT_EXECUTE|[3]",
    ""]

set_option maxRecDepth 100000 in
/-- At the end of this log an overlay can still be put on. All that an advance does there is to take
it off. -/
theorem advances_gappedLog :
    let q := (fresh { echo := true } (fun _ => none) gappedLog).performAll
      [.scan, .setSnapshot "s" ⟨[]⟩, .advance, .advance, .advance, .advance, .applyOverlay]
    stops gappedLog = [1, 4, 7, 9] ∧ q.hasOverlay = true ∧ q.position = some gappedLog.length ∧
      q.advance = q.revertOverlay.2 := by
  intro q
  obtain ⟨hstops, hoverlay, hend⟩ : stops gappedLog = [1, 4, 7, 9] ∧ q.hasOverlay = true ∧
      q.position = some gappedLog.length := by
    decide +kernel
  exact ⟨hstops, hoverlay, hend,
    (advances_eq_playAll { echo := true } (fun _ => none) gappedLog).2.2.2.2 _ hend⟩

end Replay

end Retrace
