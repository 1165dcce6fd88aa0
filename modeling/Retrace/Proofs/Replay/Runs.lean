import Retrace.Proofs.Overlay.Edits
import Retrace.Proofs.Replay.Transparency
import Mathlib.Data.List.Chain

/-!
# Runs

Whatever a user does with a replay, its live state takes the turns of the log, one after the other.
Between two turns it at most hands out handles of scopes, and loses the frame of the log behind the
first turn.

* `Replay.turnsAlong`, `Replay.statesAlong`: the turns of a run of operations, and its live states.
* `State.Idle`, `Course`: what happens between turns, and a course of turns.
* **`Replay.course_turnsAlong`**: the live state of a run takes the course of its turns.
* **`Replay.turnsAlong_append_ahead`**: these turns are of the lines of the log, in order.
* **`Replay.wellFormed_performAll`**: all states of runs are well-formed.
-/

namespace Retrace

/-! ## What is left of a list -/

theorem lt_length_of_drop {α : Type} {l rest : List α} {i : Nat} {a : α}
    (h : l.drop i = a :: rest) : i < l.length := by
  have := congrArg List.length h
  simp at this
  omega

theorem drop_succ_of_drop {α : Type} {l rest : List α} {i : Nat} {a : α}
    (h : l.drop i = a :: rest) : l.drop (i + 1) = rest := by
  rw [← List.drop_drop, h, List.drop_one, List.tail_cons]

/-! ## Courses -/

/-- What may happen to a live state behind an event, before the next one. -/
inductive State.Idle (e : Option Event) (s : State) : State → Prop
  /-- A scope gets a handle. -/
  | scope (frame : Nat) (kind : ScopeKind) :
      s.Idle e { s with handles := s.handles.create (.scope frame kind) }
  /-- The frame of the log goes. -/
  | pop (h : e = some .logStart) : s.Idle e s.popFrame

/-- Any number of such things. -/
def State.Idles (e : Option Event) : State → State → Prop := Relation.ReflTransGen (State.Idle e)

theorem State.Idles.eq_handles {e : Option Event} {s s' : State} (h : State.Idles e s s')
    (he : e ≠ some .logStart) : ∃ handles, s' = { s with handles } := by
  induction h with
  | refl => exact ⟨s.handles, rfl⟩
  | tail _ idle ih =>
    obtain ⟨handles, rfl⟩ := ih
    cases idle with
    | scope frame kind => exact ⟨handles.create (.scope frame kind), rfl⟩
    | pop h => exact absurd h he

theorem State.sound_idles {e : Option Event} {s s' : State} (h : State.Idles e s s')
    (hs : s.Sound) : s'.Sound := by
  induction h with
  | refl => exact hs
  | tail _ idle ih =>
    cases idle with
    | scope frame kind => exact ⟨ih.has, ih.unique, ih.hasCollection, ih.keyed⟩
    | pop => exact State.drops_popFrame.sound ih

/-- The event of the turn is handled. -/
def Turn.Handled (t : Turn) : Prop :=
  ∃ r : Replay, r.state = t.before ∧ (r.handle t.event).state = t.after

theorem Turn.Handled.rel {R : State → State → Prop} {t : Turn} (h : t.Handled)
    (hs : t.before.Sound)
    (handle : ∀ {r : Replay} (e : Event), r.state.Sound → R r.state (r.handle e).state) :
    R t.before t.after := by
  obtain ⟨r, hr, hr'⟩ := h
  rw [← hr, ← hr']
  exact handle t.event (hr ▸ hs)

theorem Turn.Handled.sound {t : Turn} (h : t.Handled) (hs : t.before.Sound) : t.after.Sound :=
  h.rel (R := fun s s' => s.Sound → s'.Sound) hs (fun {r} e _ => (r.step_handle e).sound) hs

/-- A course of turns from one state to another, with the events last handled there. -/
inductive Course : Option Event → State → List Turn → Option Event → State → Prop
  | nil {e : Option Event} {s s' : State} (idles : s.Idles e s') : Course e s [] e s'
  | cons {e e' : Option Event} {s s' : State} {t : Turn} {ts : List Turn}
      (idles : s.Idles e t.before) (handled : t.Handled)
      (rest : Course (some t.event) t.after ts e' s') : Course e s (t :: ts) e' s'

namespace Course

variable {e e' e'' : Option Event} {s s' s'' : State} {ts us : List Turn}

theorem idles_trans (h : s.Idles e s') (c : Course e s' ts e'' s'') : Course e s ts e'' s'' := by
  cases c with
  | nil idles => exact .nil (Relation.ReflTransGen.trans h idles)
  | cons idles handled rest => exact .cons (Relation.ReflTransGen.trans h idles) handled rest

theorem trans (c : Course e s ts e' s') (c' : Course e' s' us e'' s'') :
    Course e s (ts ++ us) e'' s'' := by
  induction c with
  | nil idles => exact c'.idles_trans idles
  | cons idles handled _ ih => exact .cons idles handled (ih c')

theorem of_append (c : Course e s (ts ++ us) e'' s'') :
    ∃ e' s', Course e s ts e' s' ∧ Course e' s' us e'' s'' := by
  induction ts generalizing e s with
  | nil => exact ⟨e, s, .nil .refl, c⟩
  | cons t ts ih =>
    cases c with
    | cons idles handled rest =>
      obtain ⟨e', s', c, c'⟩ := ih rest
      exact ⟨e', s', .cons idles handled c, c'⟩

theorem handled (c : Course e s ts e' s') {t : Turn} (ht : t ∈ ts) : t.Handled := by
  induction c with
  | nil => cases ht
  | cons _ handled _ ih =>
    rcases List.mem_cons.1 ht with rfl | ht
    · exact handled
    · exact ih ht

/-- **What events and idling keep holds all along a course.** -/
theorem invariant {I : State → Prop}
    (handle : ∀ {r : Replay} (e : Event), I r.state → I (r.handle e).state)
    (idle : ∀ {e s s'}, State.Idle e s s' → I s → I s') (c : Course e s ts e' s') (h : I s) :
    (∀ t ∈ ts, I t.before ∧ I t.after) ∧ I s' := by
  have idles : ∀ {e s s'}, State.Idles e s s' → I s → I s' := by
    intro e s s' hs h
    induction hs with
    | refl => exact h
    | tail _ hi ih => exact idle hi ih
  induction c with
  | nil h' => exact ⟨fun _ ht => absurd ht List.not_mem_nil, idles h' h⟩
  | @cons _ _ _ _ t _ h' handled _ ih =>
    obtain ⟨r, hr, hr'⟩ := handled
    have hb : I t.before := idles h' h
    have ha : I t.after := by
      rw [← hr']
      exact handle t.event (hr ▸ hb)
    obtain ⟨hts, hs'⟩ := ih ha
    refine ⟨fun u hu => ?_, hs'⟩
    rcases List.mem_cons.1 hu with rfl | hu
    · exact ⟨hb, ha⟩
    · exact hts u hu

section Grows

variable {R : State → State → Prop}

/-- **What grows with events and idling grows from each state of a course to each later one**, when
the first state is sound. -/
theorem pairwise (refl : ∀ s, R s s) (trans : ∀ {s t u}, R s t → R t u → R s u)
    (handle : ∀ {r : Replay} (e : Event), r.state.Sound → R r.state (r.handle e).state)
    (idle : ∀ {e s s'}, State.Idle e s s' → R s s') (c : Course e s ts e' s') (hs : s.Sound) :
    (s :: (ts.flatMap (fun t => [t.before, t.after]) ++ [s'])).Pairwise R := by
  have idles : ∀ {e s s'}, State.Idles e s s' → R s s' := by
    intro e s s' h
    induction h with
    | refl => exact refl _
    | tail _ hi ih => exact trans ih (idle hi)
  have : IsTrans State R := ⟨fun _ _ _ => trans⟩
  rw [← List.isChain_iff_pairwise]
  induction c with
  | nil h => exact .cons_cons (idles h) (.singleton _)
  | cons h handled _ ih =>
    have hbefore := State.sound_idles h hs
    have hturn := handled.rel hbefore handle
    exact .cons_cons (idles h) (.cons_cons hturn (ih (handled.sound hbefore)))

/-- So it grows from the first state, and from behind each turn, to the last state. -/
theorem grows (refl : ∀ s, R s s) (trans : ∀ {s t u}, R s t → R t u → R s u)
    (handle : ∀ {r : Replay} (e : Event), r.state.Sound → R r.state (r.handle e).state)
    (idle : ∀ {e s s'}, State.Idle e s s' → R s s') (c : Course e s ts e' s') (hs : s.Sound) :
    R s s' ∧ ∀ t ∈ ts, R t.after s' := by
  obtain ⟨hfirst, hrest⟩ := List.pairwise_cons.1 (c.pairwise refl trans handle idle hs)
  have hlast := (List.pairwise_append.1 hrest).2.2
  refine ⟨hfirst s' (by simp), fun t ht => hlast t.after ?_ s' (by simp)⟩
  exact List.mem_flatMap.2 ⟨t, ht, by simp⟩

end Grows

end Course

namespace Replay

theorem invariant_performAll {I : Replay → Prop} (ops : List Operation)
    (step : ∀ {r : Replay}, ∀ op ∈ ops, I r → I (r.perform op)) {r : Replay} (h : I r) :
    I (r.performAll ops) := by
  induction ops generalizing r with
  | nil => exact h
  | cons op ops ih =>
    exact ih (fun op' hop => step op' (List.mem_cons_of_mem _ hop)) (step op List.mem_cons_self h)

/-- The turns of a run of operations. -/
def turnsAlong : List Operation → Replay → List Turn
  | [], _ => []
  | op :: ops, r => (if op.isAdvance then r.turns 1 else []) ++ turnsAlong ops (r.perform op)

theorem handled_step (r : Replay) (line : String) :
    (⟨r.state, (r.step line).1, (r.step line).2.state⟩ : Turn).Handled :=
  ⟨(r.classify line).2.echo line (r.classify line).1, by rw [state_echo, state_classify], rfl⟩

theorem course_turnsThrough (ls : List String) (r : Replay) :
    Course r.current r.state (turnsThrough ls r) (consume ls r).current (consume ls r).state := by
  induction ls generalizing r with
  | nil => exact .nil .refl
  | cons line rest ih =>
    simp only [turnsThrough, consume]
    split
    · exact ih r.moveOn
    · refine .cons .refl (r.moveOn.handled_step line) ?_
      split
      · exact .nil .refl
      · exact ih (r.moveOn.step line).2

@[simp] theorem current_revertOverlay (r : Replay) : r.revertOverlay.2.current = r.current := by
  unfold revertOverlay
  split <;> rfl

@[simp] theorem current_dropLogFrame (r : Replay) : r.dropLogFrame.current = r.current := by
  unfold dropLogFrame
  split <;> rfl

theorem idles_dropLogFrame (r : Replay) : r.state.Idles r.current r.dropLogFrame.state := by
  unfold dropLogFrame
  split
  · next h => exact .single (.pop h)
  · exact .refl

theorem course_advance (r : Replay) :
    Course r.current r.live (r.turns 1) r.advance.current r.advance.live := by
  have h := idles_dropLogFrame r.revertOverlay.2
  have c := course_turnsThrough
    (r.revertOverlay.2.dropLogFrame.lines.drop r.revertOverlay.2.dropLogFrame.nextIndex)
    r.revertOverlay.2.dropLogFrame
  rw [current_dropLogFrame] at c
  rw [current_revertOverlay, state_revertOverlay] at h
  rw [current_revertOverlay] at c
  simp only [turns, List.append_nil, live_advance]
  exact c.idles_trans h

theorem idles_scopes (e : Option Event) (r : Replay) (frame : Nat) :
    r.state.Idles e (r.scopes frame).2.state ∧ r.live.Idles e (r.scopes frame).2.live ∧
      (r.scopes frame).2.current = r.current := by
  have given : ∀ s : State, s.Idles e
      { s with
        handles := ((s.handles.create (.scope frame .locals)).create
          (.scope frame .statics)).create (.scope frame .globals) } := by
    intro s
    exact ((Relation.ReflTransGen.single (.scope frame .locals)).tail (.scope frame .statics)).tail
      (.scope frame .globals)
  unfold scopes
  split
  · exact ⟨.refl, .refl, rfl⟩
  · refine ⟨given r.state, ?_, rfl⟩
    show r.live.Idles e (r.saved.getD _)
    unfold live
    cases r.saved with
    | some s => exact .refl
    | none => exact given r.state

theorem idles_perform (r : Replay) {op : Operation} (hop : op.isAdvance = false) :
    r.live.Idles r.current (r.perform op).live ∧ (r.perform op).current = r.current := by
  have same : ∀ {q : Replay}, q.live = r.live → q.current = r.current →
      r.live.Idles r.current q.live ∧ q.current = r.current := by
    intro q h h'
    rw [h]
    exact ⟨.refl, h'⟩
  have reverted : ∀ {q : Replay}, q.revertOverlay.2 = r.revertOverlay.2 →
      r.live.Idles r.current q.live ∧ q.current = r.current := by
    intro q h
    refine same ?_ ?_
    · rw [← state_revertOverlay, ← state_revertOverlay, h]
    · rw [← current_revertOverlay, h, current_revertOverlay]
  cases op with
  | advance => cases hop
  | applyOverlay => exact reverted (by rw [perform, revertOverlay_applyOverlay])
  | applyOverlayAtTop => exact reverted r.revertOverlay_applyOverlayAtTop
  | revertOverlay => exact reverted (by rw [perform, revertOverlay_twice])
  | scan =>
    obtain ⟨h, hsaved⟩ := r.matches_scan
    refine same ?_ h.current
    simp only [perform, live, hsaved, h.state]
  | setSnapshot id snapshot => exact same rfl rfl
  | forgetMarker => exact same rfl rfl
  | scopes frame => exact (r.idles_scopes r.current frame).2
  | views handle => exact same rfl rfl

/-- **The live state of a run takes the course of its turns.** -/
theorem course_turnsAlong (ops : List Operation) (r : Replay) :
    Course r.current r.live (r.turnsAlong ops) (r.performAll ops).current
      (r.performAll ops).live := by
  induction ops generalizing r with
  | nil => exact .nil .refl
  | cons op ops ih =>
    simp only [turnsAlong, performAll]
    have c := ih (r.perform op)
    cases hop : op.isAdvance with
    | true =>
      cases op with
      | advance => exact r.course_advance.trans c
      | _ => cases hop
    | false =>
      obtain ⟨h, hcurrent⟩ := r.idles_perform hop
      rw [hcurrent] at c
      exact c.idles_trans h

/-- The live states of a run in order: before and behind each line, and at the end. -/
def statesAlong (ops : List Operation) (r : Replay) : List State :=
  (r.turnsAlong ops).flatMap (fun t => [t.before, t.after]) ++ [(r.performAll ops).live]

/-! ## The events of the log -/

/-- The events of lines, behind the event given. The first line that is not empty begins the log,
whatever it holds. -/
def eventsBehind : Option Event → List String → List Event
  | _, [] => []
  | e, line :: rest =>
    if line = "" then eventsBehind e rest
    else
      let e' := if e.isNone then .logStart else Event.ofLine line
      e' :: eventsBehind (some e') rest

/-- The events of a log. -/
def eventsOf (lines : List String) : List Event := eventsBehind none lines

/-- The events of the lines that are left. -/
def eventsAhead (r : Replay) : List Event := eventsBehind r.current (r.lines.drop r.nextIndex)

theorem classify_fst (r : Replay) (line : String) :
    (r.classify line).1 = if r.current.isNone then .logStart else Event.ofLine line := by
  unfold classify
  cases r.current <;> rfl

theorem drop_moveOn {r : Replay} {line : String} {rest : List String}
    (h : r.lines.drop r.nextIndex = line :: rest) :
    r.moveOn.lines.drop r.moveOn.nextIndex = rest ∧
      (r.moveOn.step line).2.lines.drop (r.moveOn.step line).2.nextIndex = rest := by
  rw [lines_step, nextIndex_step, lines_moveOn, nextIndex_moveOn]
  exact ⟨drop_succ_of_drop h, drop_succ_of_drop h⟩

theorem turnsThrough_append_ahead {ls : List String} {r : Replay}
    (h : r.lines.drop r.nextIndex = ls) :
    (turnsThrough ls r).map Turn.event ++ (consume ls r).eventsAhead =
      eventsBehind r.current ls := by
  induction ls generalizing r with
  | nil =>
    have hdrop : r.lines.drop (r.lines.length + 1) = [] := by simp
    show eventsBehind r.current (r.lines.drop (r.lines.length + 1)) = _
    rw [hdrop]
  | cons line rest ih =>
    obtain ⟨hrest, hstep⟩ := drop_moveOn h
    simp only [turnsThrough, consume, eventsBehind]
    split
    · exact ih hrest
    · have hevent : (r.moveOn.step line).1 =
          if r.current.isNone then .logStart else Event.ofLine line := r.moveOn.classify_fst line
      have hcurrent : (r.moveOn.step line).2.current = some (r.moveOn.step line).1 := rfl
      rw [← hevent, ← hcurrent, List.map_cons, List.cons_append]
      split
      · refine congrArg _ ?_
        show eventsBehind _ _ = _
        rw [hstep]
      · exact congrArg _ (ih hstep)

theorem lines_perform (r : Replay) (op : Operation) : (r.perform op).lines = r.lines := by
  cases h : op.isAdvance with
  | true =>
    cases op with
    | advance => exact r.lines_advance
    | _ => cases h
  | false =>
    have hm := (matches_perform State.Alike.refl r h (.inr fun _ _ h => h)).lines
    rw [lines_revertOverlay, lines_revertOverlay] at hm
    exact hm

theorem position_perform (r : Replay) {op : Operation} (h : op.isAdvance = false) :
    (r.perform op).position = r.position := by
  have hm := (matches_perform State.Alike.refl r h (.inr fun _ _ h => h)).position
  rw [position_revertOverlay, position_revertOverlay] at hm
  exact hm

/-- **The turns of a run are of the lines of the log in order**: their events and those of the
lines that are left are the events that were ahead. -/
theorem turnsAlong_append_ahead (ops : List Operation) (r : Replay) :
    (r.turnsAlong ops).map Turn.event ++ (r.performAll ops).eventsAhead = r.eventsAhead := by
  induction ops generalizing r with
  | nil => rfl
  | cons op ops ih =>
    simp only [turnsAlong, performAll]
    rw [List.map_append, List.append_assoc, ih]
    cases hop : op.isAdvance with
    | true =>
      cases op with
      | advance =>
        have h := turnsThrough_append_ahead (r := r.revertOverlay.2.dropLogFrame) rfl
        rw [if_pos rfl]
        simp only [turns, List.append_nil]
        refine h.trans ?_
        simp only [eventsAhead, nextIndex, lines_dropLogFrame, position_dropLogFrame,
          lines_revertOverlay, position_revertOverlay, current_dropLogFrame, current_revertOverlay]
      | _ => cases hop
    | false =>
      rw [if_neg (by simp)]
      simp only [eventsAhead, nextIndex, lines_perform, r.position_perform hop,
        (r.idles_perform hop).2]
      rfl

/-! ## Well-formedness -/

/-- The state shown and the live state are well-formed, and show the same calls. -/
structure WellFormed (r : Replay) : Prop where
  state : r.state.WellFormed
  live : r.live.WellFormed
  shown : r.live.SameFrames r.state

theorem WellFormed.of_live {r : Replay} (same : r.state = r.live) (h : r.live.WellFormed) :
    r.WellFormed where
  state := same ▸ h
  live := h
  shown := same ▸ .refl _

theorem wellFormed_idle {e : Option Event} {s s' : State} (h : s.Idle e s') (hs : s.WellFormed) :
    s'.WellFormed := by
  cases h with
  | scope frame kind => exact hs.createScope frame kind
  | pop => exact hs.popFrame

theorem wellFormed_idles {e : Option Event} {s s' : State} (h : s.Idles e s')
    (hs : s.WellFormed) : s'.WellFormed := by
  induction h with
  | refl => exact hs
  | tail _ hi ih => exact wellFormed_idle hi ih

theorem wellFormed_turnsAlong {r : Replay} (h : r.live.WellFormed) (ops : List Operation) :
    (∀ t ∈ r.turnsAlong ops, t.before.WellFormed ∧ t.after.WellFormed) ∧
      (r.performAll ops).live.WellFormed :=
  (r.course_turnsAlong ops).invariant (fun e h => wellFormed_handle h e) wellFormed_idle h

theorem wellFormed_statesAlong {r : Replay} (h : r.live.WellFormed) (ops : List Operation) :
    ∀ s ∈ statesAlong ops r, s.WellFormed := by
  obtain ⟨turns, last⟩ := wellFormed_turnsAlong h ops
  intro s hs
  rcases List.mem_append.1 hs with hs | hs
  · obtain ⟨t, ht, hs⟩ := List.mem_flatMap.1 hs
    rcases List.mem_pair.1 hs with rfl | rfl
    · exact (turns t ht).1
    · exact (turns t ht).2
  · exact List.mem_singleton.1 hs ▸ last

theorem WellFormed.applyOverlay {r : Replay} (h : r.WellFormed) :
    r.applyOverlay.2.WellFormed := by
  have hs : r.revertOverlay.2.state.WellFormed := by
    rw [state_revertOverlay]
    exact h.live
  have hlive : r.revertOverlay.2.state = r.revertOverlay.2.live := by
    rw [Replay.live, saved_revertOverlay]
    rfl
  unfold Replay.applyOverlay
  dsimp only
  split
  · exact .of_live hlive (hlive ▸ hs)
  · exact ⟨hs.overlay _ _, hs, (State.edits_overlay hs.sound _ _).sameFrames⟩

/-- **Every operation keeps a replay well-formed.** -/
theorem WellFormed.perform {r : Replay} (h : r.WellFormed) (op : Operation) :
    (r.perform op).WellFormed := by
  have same : ∀ {q : Replay}, q.state = r.state → q.live = r.live → q.WellFormed := by
    intro q hstate hlive
    exact ⟨hstate ▸ h.state, hlive ▸ h.live, by rw [hstate, hlive]; exact h.shown⟩
  cases op with
  | advance => exact .of_live r.live_advance.symm (wellFormed_turnsAlong h.live [.advance]).2
  | applyOverlay => exact h.applyOverlay
  | applyOverlayAtTop =>
    simp only [Replay.perform, applyOverlayAtTop]
    split
    · exact h.applyOverlay
    · exact h
  | revertOverlay =>
    have hlive : r.revertOverlay.2.live = r.live := by
      rw [Replay.live, saved_revertOverlay, state_revertOverlay]
      rfl
    refine .of_live ?_ ?_
    · rw [Replay.perform, state_revertOverlay, hlive]
    · rw [Replay.perform, hlive]
      exact h.live
  | scan =>
    obtain ⟨hm, hsaved⟩ := r.matches_scan
    exact same hm.state (by rw [Replay.perform, Replay.live, hsaved, hm.state]; rfl)
  | setSnapshot id snapshot => exact same rfl rfl
  | forgetMarker => exact same rfl rfl
  | scopes frame =>
    obtain ⟨hstate, hlive, -⟩ := r.idles_scopes none frame
    refine ⟨wellFormed_idles hstate h.state, wellFormed_idles hlive h.live, ?_⟩
    obtain ⟨handles, hs⟩ := hstate.eq_handles (by simp)
    obtain ⟨handles', hl⟩ := hlive.eq_handles (by simp)
    rw [Replay.perform, hs, hl]
    exact ⟨h.shown.stack, h.shown.statics, h.shown.keys, h.shown.activation⟩
  | views handle => exact h

theorem WellFormed.run {r : Replay} (h : r.WellFormed) (ops : List Operation) :
    (r.performAll ops).WellFormed :=
  invariant_performAll ops (fun op _ h => h.perform op) h

theorem wellFormed_fresh (config : Config) (resolver : Resolver) (lines : List String) :
    (fresh config resolver lines).WellFormed :=
  .of_live rfl .empty

/-- **Nothing ever dangles.** However advances, overlays of any snapshots, looks at scopes and
searches are mixed, the state shown and the live state below are well-formed: no binding is in two
places, handles and bindings name each other, and everything looked up is there. -/
theorem wellFormed_performAll (config : Config) (resolver : Resolver) (lines : List String)
    (ops : List Operation) :
    ((fresh config resolver lines).performAll ops).state.WellFormed ∧
      ((fresh config resolver lines).performAll ops).live.WellFormed := by
  have h := (wellFormed_fresh config resolver lines).run ops
  exact ⟨h.state, h.live⟩

end Replay

end Retrace
