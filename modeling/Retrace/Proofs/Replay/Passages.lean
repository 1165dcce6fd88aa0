import Retrace.Proofs.Replay.Folding

/-!
# Passages

What a replay notes, says and rebuilds comes from the lines that it goes through. A run goes through
the lines of the log that are not empty, in order, each once, whatever else is done between two
advances.

* `Passage`: a line, and the replay that has come to it.
* `Replay.passagesAlong`: the lines that a run goes through.
* **`Replay.places_passagesAlong`**: they are the lines of the log that are not empty.
* `Replay.Keeps`, **`Replay.Keeps.run`**: what each line keeps holds at every passage of a run.
* `Replay.Begins`: the log has begun behind its first line that is not empty.
-/

namespace Retrace

section Written

variable {lines rest : List String} {line : String} {i j : Nat}

theorem written_succ (h : lines.drop i = line :: rest) (hji : j ≤ i) :
    written lines j (i + 1) = written lines j i ++ if line = "" then [] else [(line, i)] := by
  rw [← written_append hji (Nat.le_succ i), written_cons h (Nat.lt_succ_self i),
    written_of_le (Nat.le_refl _)]

theorem written_of_length_le_right (h : lines.length ≤ j) :
    written lines i j = written lines i lines.length := by
  have hall : ∀ k, lines.length ≤ k → lines.zipIdx.take k = lines.zipIdx := fun k hk =>
    List.take_of_length_le (by rwa [List.length_zipIdx])
  rw [written, written, hall j h, hall _ (Nat.le_refl _)]

end Written

/-- A line that a replay goes through. -/
structure Passage where
  /-- The replay that has moved on to the line. -/
  replay : Replay
  /-- The line. -/
  line : String

namespace Passage

/-- What the line reports. -/
def event (p : Passage) : Event := (p.replay.step p.line).1

/-- The replay behind the line. -/
def after (p : Passage) : Replay := (p.replay.step p.line).2

/-- The number of the line in the log, counted from one. -/
def number (p : Passage) : Nat := p.replay.nextIndex

/-- A replay with the property moves on to the line, which is not empty. -/
def From (I : Replay → Prop) (p : Passage) : Prop :=
  ∃ (r : Replay) (rest : List String), I r ∧ r.lines.drop r.nextIndex = p.line :: rest ∧
    p.line ≠ "" ∧ p.replay = r.moveOn

end Passage

namespace Replay

/-- The passages of going through lines up to a pause. -/
def passagesThrough : List String → Replay → List Passage
  | [], _ => []
  | line :: rest, r =>
    if line = "" then passagesThrough rest r.moveOn
    else
      let (e, r') := r.moveOn.step line
      ⟨r.moveOn, line⟩ :: if e.pauses then [] else passagesThrough rest r'

/-- The passages of an advance. -/
def passages (r : Replay) : List Passage :=
  let r := r.revertOverlay.2.dropLogFrame
  passagesThrough (r.lines.drop r.nextIndex) r

/-- The passages of a run of operations. -/
def passagesAlong : List Operation → Replay → List Passage
  | [], _ => []
  | op :: ops, r => (if op.isAdvance then r.passages else []) ++ passagesAlong ops (r.perform op)

/-! ## Invariants -/

/-- What is kept by going on to a line, by its passage, by reaching the end of the log, by getting
ready for an advance, and by everything that is no advance. -/
structure Keeps (I : Replay → Prop) : Prop where
  blank : ∀ {r : Replay} {rest : List String},
    r.lines.drop r.nextIndex = "" :: rest → I r → I r.moveOn
  line : ∀ {r : Replay} {line : String} {rest : List String},
    r.lines.drop r.nextIndex = line :: rest → line ≠ "" → I r → I (r.moveOn.step line).2
  ended : ∀ {r : Replay}, r.lines.drop r.nextIndex = [] → I r →
    I { r with position := some r.lines.length }
  ready : ∀ {r : Replay}, I r → I r.revertOverlay.2.dropLogFrame
  look : ∀ {r : Replay} {op : Operation}, op.isAdvance = false → I r → I (r.perform op)

section Keeps

variable {I : Replay → Prop}

theorem Keeps.consume (keeps : Keeps I) {ls : List String} {r : Replay}
    (hls : r.lines.drop r.nextIndex = ls) (h : I r) :
    (∀ p ∈ passagesThrough ls r, p.From I) ∧ I (consume ls r) := by
  induction ls generalizing r with
  | nil => exact ⟨fun _ hp => absurd hp List.not_mem_nil, keeps.ended hls h⟩
  | cons line rest ih =>
    obtain ⟨hrest, hstep⟩ := drop_moveOn hls
    simp only [passagesThrough, Replay.consume]
    split
    · next he =>
      subst he
      exact ih hrest (keeps.blank hls h)
    · next he =>
      have hhere : Passage.From I ⟨r.moveOn, line⟩ := ⟨r, rest, h, hls, he, rfl⟩
      have hline : I (r.moveOn.step line).2 := keeps.line hls he h
      split
      · exact ⟨List.forall_mem_singleton.2 hhere, hline⟩
      · obtain ⟨hps, hc⟩ := ih hstep hline
        exact ⟨List.forall_mem_cons.2 ⟨hhere, hps⟩, hc⟩

/-- **What each line keeps holds at every passage of a run**, and at its end. -/
theorem Keeps.run (keeps : Keeps I) (ops : List Operation) {r : Replay} (h : I r) :
    (∀ p ∈ passagesAlong ops r, p.From I) ∧ I (r.performAll ops) := by
  induction ops generalizing r with
  | nil => exact ⟨fun _ hp => absurd hp List.not_mem_nil, h⟩
  | cons op ops ih =>
    obtain ⟨hps, hop⟩ : (∀ p ∈ if op.isAdvance then r.passages else [], p.From I) ∧
        I (r.perform op) := by
      cases op with
      | advance => exact keeps.consume rfl (keeps.ready h)
      | _ => exact ⟨fun _ hp => absurd hp List.not_mem_nil, keeps.look rfl h⟩
    obtain ⟨hps', hend⟩ := ih hop
    exact ⟨fun p hp => (List.mem_append.1 hp).elim (hps p) (hps' p), hend⟩

end Keeps

/-! ## Places -/

theorem nextIndex_congr {r q : Replay} (h : q.position = r.position) :
    q.nextIndex = r.nextIndex := by
  rw [nextIndex, nextIndex, h]

theorem nextIndex_ready (r : Replay) :
    r.revertOverlay.2.dropLogFrame.nextIndex = r.nextIndex :=
  nextIndex_congr (by rw [position_dropLogFrame, position_revertOverlay])

theorem lines_ready (r : Replay) : r.revertOverlay.2.dropLogFrame.lines = r.lines := by
  rw [lines_dropLogFrame, lines_revertOverlay]

theorem keeps_nextIndex_le : Keeps fun r => r.nextIndex ≤ r.lines.length + 1 where
  blank hls _ := by
    have := lt_length_of_drop hls
    rw [nextIndex_moveOn, lines_moveOn]
    omega
  line hls _ _ := by
    have := lt_length_of_drop hls
    rw [nextIndex_step, lines_step, nextIndex_moveOn, lines_moveOn]
    omega
  ended _ _ := Nat.le_refl _
  ready {r} h := by
    rw [nextIndex_ready, lines_ready]
    exact h
  look {r op} hop h := by
    rw [nextIndex_congr (r.position_perform hop), lines_perform]
    exact h

/-- The log has begun when a line that is not empty lies behind. -/
structure Begins (ls : List String) (r : Replay) : Prop where
  lines : r.lines = ls
  begun : r.current = none ↔ written ls 0 r.nextIndex = []

theorem Begins.congr {ls : List String} {r q : Replay} (h : r.Begins ls)
    (hlines : q.lines = r.lines) (hposition : q.position = r.position)
    (hcurrent : q.current = r.current) : q.Begins ls where
  lines := hlines.trans h.lines
  begun := by
    rw [hcurrent, nextIndex_congr hposition]
    exact h.begun

theorem begins_fresh (config : Config) (resolver : Resolver) (lines : List String) :
    (fresh config resolver lines).Begins lines :=
  ⟨rfl, iff_of_true rfl (written_of_le (Nat.le_refl _))⟩

theorem keeps_begins (lines : List String) : Keeps (Begins lines) where
  blank {r rest} hls h := by
    rw [h.lines] at hls
    have hw := written_succ hls (Nat.zero_le _)
    rw [if_pos rfl, List.append_nil] at hw
    refine ⟨h.lines, ?_⟩
    rw [nextIndex_moveOn, hw]
    exact h.begun
  line {r line rest} hls he h := by
    rw [h.lines] at hls
    have hw := written_succ hls (Nat.zero_le _)
    rw [if_neg he] at hw
    refine ⟨(lines_step ..).trans h.lines, ?_⟩
    rw [nextIndex_step, nextIndex_moveOn, hw]
    simp [step]
  ended {r} hls h := by
    rw [h.lines] at hls
    refine ⟨h.lines, ?_⟩
    show r.current = none ↔ written lines 0 (r.lines.length + 1) = []
    rw [h.lines, written_of_length_le_right (Nat.le_succ _),
      ← written_of_length_le_right (List.drop_eq_nil_iff.1 hls)]
    exact h.begun
  ready {r} h := h.congr (lines_ready r) (by rw [position_dropLogFrame, position_revertOverlay])
    (by rw [current_dropLogFrame, current_revertOverlay])
  look {r op} hop h := h.congr (lines_perform r op) (r.position_perform hop) (r.idles_perform hop).2

theorem le_nextIndex_consume (ls : List String) {r : Replay}
    (hle : r.nextIndex ≤ r.lines.length + 1) : r.nextIndex ≤ (consume ls r).nextIndex := by
  rcases nextIndex_consume ls r with h | h
  · have hend : (consume ls r).nextIndex = r.lines.length + 1 := by
      rw [nextIndex, h]
      rfl
    exact hend ▸ hle
  · exact Nat.le_of_lt h

theorem places_passagesThrough {ls : List String} {r : Replay}
    (hls : r.lines.drop r.nextIndex = ls) :
    (passagesThrough ls r).map (fun p => (p.line, p.number)) =
      (written r.lines r.nextIndex (consume ls r).nextIndex).map fun l => (l.1, l.2 + 1) := by
  induction ls generalizing r with
  | nil =>
    rw [written_of_length_le (List.drop_eq_nil_iff.1 hls)]
    rfl
  | cons line rest ih =>
    obtain ⟨hrest, hstep⟩ := drop_moveOn hls
    have hlt := lt_length_of_drop hls
    have hmoved : r.moveOn.nextIndex ≤ r.moveOn.lines.length + 1 := by
      rw [nextIndex_moveOn, lines_moveOn]
      omega
    simp only [passagesThrough, consume]
    by_cases he : line = ""
    · have hle := le_nextIndex_consume rest hmoved
      rw [nextIndex_moveOn] at hle
      rw [if_pos he, if_pos he, written_cons hls hle, if_pos he, ih hrest]
      rfl
    · have hle := le_nextIndex_consume rest (r := (r.moveOn.step line).2) (by
        rw [nextIndex_step, lines_step]
        exact hmoved)
      rw [nextIndex_step, nextIndex_moveOn] at hle
      rw [if_neg he, if_neg he]
      by_cases hp : (r.moveOn.step line).1.pauses
      · rw [if_pos hp, if_pos hp, nextIndex_step, nextIndex_moveOn,
          written_cons hls (Nat.lt_succ_self _), if_neg he, written_of_le (Nat.le_refl _)]
        rfl
      · rw [if_neg hp, if_neg hp, written_cons hls hle, if_neg he, List.map_cons, List.map_cons,
          ih hstep, lines_step, nextIndex_step]
        rfl

theorem places_passages {r : Replay} (hle : r.nextIndex ≤ r.lines.length + 1) :
    r.passages.map (fun p => (p.line, p.number)) =
        (written r.lines r.nextIndex r.advance.nextIndex).map (fun l => (l.1, l.2 + 1)) ∧
      r.nextIndex ≤ r.advance.nextIndex := by
  have hplaces := places_passagesThrough (r := r.revertOverlay.2.dropLogFrame) rfl
  have hback := le_nextIndex_consume
    (r.revertOverlay.2.dropLogFrame.lines.drop r.revertOverlay.2.dropLogFrame.nextIndex)
    (r := r.revertOverlay.2.dropLogFrame) (by rwa [nextIndex_ready, lines_ready])
  rw [lines_ready, nextIndex_ready] at hplaces hback
  rw [passages, advance, lines_ready, nextIndex_ready]
  exact ⟨hplaces, hback⟩

/-- **A run goes through the lines of the log that are not empty**, from its place on, each once and
in order. -/
theorem places_passagesAlong (ops : List Operation) {r : Replay}
    (hle : r.nextIndex ≤ r.lines.length + 1) :
    (passagesAlong ops r).map (fun p => (p.line, p.number)) =
        (written r.lines r.nextIndex (r.performAll ops).nextIndex).map (fun l => (l.1, l.2 + 1)) ∧
      r.nextIndex ≤ (r.performAll ops).nextIndex := by
  induction ops generalizing r with
  | nil =>
    refine ⟨?_, Nat.le_refl _⟩
    rw [performAll, written_of_le (Nat.le_refl _)]
    rfl
  | cons op ops ih =>
    obtain ⟨hfirst, hback⟩ :
        (if op.isAdvance then r.passages else []).map (fun p => (p.line, p.number)) =
          (written r.lines r.nextIndex (r.perform op).nextIndex).map (fun l => (l.1, l.2 + 1)) ∧
        r.nextIndex ≤ (r.perform op).nextIndex := by
      cases hop : op.isAdvance with
      | true =>
        cases op with
        | advance => exact places_passages hle
        | _ => cases hop
      | false =>
        rw [nextIndex_congr (r.position_perform hop), written_of_le (Nat.le_refl _)]
        exact ⟨rfl, Nat.le_refl _⟩
    obtain ⟨hrest, hback'⟩ := ih (r := r.perform op) (keeps_nextIndex_le.run [op] hle).2
    rw [lines_perform] at hrest
    rw [passagesAlong, List.map_append, performAll, hfirst, hrest, ← List.map_append,
      written_append hback hback']
    exact ⟨rfl, hback.trans hback'⟩

theorem flatMap_written_tail {α : Type} (lines : List String) (f : String × Nat → List α)
    (i : Nat) :
    ((written lines 0 i).flatMap fun l => if written lines 0 l.2 = [] then [] else f l) =
      (written lines 0 i).tail.flatMap f := by
  induction i with
  | zero => rw [written_of_le (Nat.le_refl _)]; rfl
  | succ i ih =>
    cases hls : lines.drop i with
    | nil =>
      have hi := List.drop_eq_nil_iff.1 hls
      rw [written_of_length_le_right (Nat.le_succ_of_le hi), ← written_of_length_le_right hi]
      exact ih
    | cons line rest =>
      rw [written_succ hls (Nat.zero_le i), List.flatMap_append, ih]
      by_cases he : line = ""
      · simp [he]
      · cases hw : written lines 0 i <;> simp [he, hw]

/-- What the passages of a run add, once the log has begun, is added by the lines behind the first
one. -/
theorem flatMap_passagesAlong {α : Type} (config : Config) (resolver : Resolver)
    (lines : List String) (ops : List Operation) {f : String × Nat → List α}
    {g : Passage → List α}
    (h : ∀ (r : Replay) (line : String), g ⟨r.moveOn, line⟩ =
      if r.current = none then [] else f (line, r.nextIndex)) :
    (passagesAlong ops (fresh config resolver lines)).flatMap g =
      (written lines 0 ((fresh config resolver lines).performAll ops).nextIndex).tail.flatMap f := by
  have hpassages := ((keeps_begins lines).run ops (begins_fresh config resolver lines)).1
  have hplaces := (places_passagesAlong ops (r := fresh config resolver lines)
    (Nat.zero_le _)).1
  rw [← flatMap_written_tail]
  -- both lists come from the lines with their numbers
  have hlines : ((passagesAlong ops (fresh config resolver lines)).map
      fun p => (p.line, p.number)).flatMap
        (fun l => if written lines 0 (l.2 - 1) = [] then [] else f (l.1, l.2 - 1)) =
      (passagesAlong ops (fresh config resolver lines)).flatMap g := by
    rw [List.flatMap_map]
    refine List.flatMap_congr fun p hp => ?_
    obtain ⟨r, rest, hr, -, -, hreplay⟩ := hpassages p hp
    obtain ⟨replay, line⟩ := p
    subst hreplay
    rw [h]
    exact if_congr hr.begun.symm rfl rfl
  rw [← hlines, hplaces, List.flatMap_map]
  rfl

end Replay

end Retrace
