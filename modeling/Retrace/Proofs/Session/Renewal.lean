import Retrace.Proofs.Replay.Markers
import Retrace.Proofs.Session.Navigation

/-!
# Overlays that are shown again

The marker passed last is never forgotten while a session goes on. So an overlay is shown wherever
the current frame stands at its place: just behind the marker, and also when its line is executed
again without one. What tells both apart are the lines consumed since the pause before.

* `Replay.stretch`, `Replay.eve`: the lines that an advance consumes, and the pause before the one
  at which a search by advances ends.
* `Replay.Tracks.exists_lastMarked?`, `Replay.Tracks.exists_marked`: an overlay is of the marker
  passed last, and this marker is among the lines of the last advance unless there is none among
  them.
* `Replay.applyOverlayAtTop_of_unmarked`: behind lines without a marker an overlay is shown again.
* `Session.Request`, `Session.operates_serve`: a session makes operations of its replay.
* **`Session.renews_iff`**: when the overlay of a stop is a new one.
-/

set_option linter.unusedVariables false

namespace Retrace

/-! ## Places -/

/-- Where a frame stands. -/
def Frame.place (frame : Frame) : String × Nat := (frame.name, frame.line)

/-- A marker of the place of the frame is among the lines. -/
def Frame.MarkedIn (frame : Frame) (lines : List String) : Prop :=
  ∃ line ∈ lines, ∃ m, markedBy? line = some m ∧ m.isAt frame.name frame.line = true

namespace Replay

/-! ## Lines of an advance -/

/-- The lines that the next advance consumes. -/
def stretch (r : Replay) : List String :=
  (r.lines.drop r.nextIndex).take (r.advance.nextIndex - r.nextIndex)

theorem nextIndex_le_consume (ls : List String) (r : Replay) :
    r.nextIndex ≤ (consume ls r).nextIndex ∨ r.lines.length ≤ (consume ls r).nextIndex := by
  refine (nextIndex_consume ls r).symm.imp Nat.le_of_lt fun h => ?_
  rw [nextIndex, h]
  exact Nat.le_succ _

theorem exists_advance_eq (r : Replay) :
    ∃ q : Replay, q.lines = r.lines ∧ q.nextIndex = r.nextIndex ∧ q.lastMarker = r.lastMarker ∧
      r.advance = consume (q.lines.drop q.nextIndex) q := by
  refine ⟨r.revertOverlay.2.dropLogFrame, by simp, by simp [nextIndex], ?_, rfl⟩
  rw [revertOverlay_snd]
  unfold dropLogFrame
  split <;> rfl

/-- **The lines consumed behind an advance.** -/
theorem take_advance (r : Replay) : r.advance.lines.take r.advance.nextIndex =
    r.lines.take r.nextIndex ++ r.stretch := by
  obtain ⟨q, hlines, hindex, -, heq⟩ := r.exists_advance_eq
  have hle := nextIndex_le_consume (q.lines.drop q.nextIndex) q
  rw [← heq, hlines, hindex] at hle
  rw [lines_advance, stretch]
  by_cases h : r.nextIndex ≤ r.advance.nextIndex
  · rw [← List.take_add, Nat.add_sub_cancel' h]
  · have hall := hle.resolve_left h
    rw [Nat.sub_eq_zero_of_le (Nat.le_of_not_le h), List.take_zero, List.append_nil,
      List.take_of_length_le hall, List.take_of_length_le (by omega)]

/-- Where neither a line nor what is consumed behind it is a marker, the line is none, and neither
is what a replay consumes that goes on behind it. -/
theorem forall_unmarked_behind (r q : Replay) {line : String} {rest : List String}
    (hlt : r.nextIndex < r.lines.length) (hlines : q.lines = r.lines)
    (hindex : q.nextIndex = r.nextIndex + 1)
    (unmarked : ∀ l ∈ (line :: rest).take ((consume rest q).nextIndex - r.nextIndex),
      markedBy? l = none) :
    markedBy? line = none ∧
      ∀ l ∈ rest.take ((consume rest q).nextIndex - q.nextIndex), markedBy? l = none := by
  have hle := nextIndex_le_consume rest q
  rw [hlines, hindex] at hle
  have hsub : (consume rest q).nextIndex - r.nextIndex =
      (consume rest q).nextIndex - (r.nextIndex + 1) + 1 := by omega
  rw [hsub, List.take_succ_cons, List.forall_mem_cons] at unmarked
  rw [hindex]
  exact unmarked

theorem lastMarker_consume {ls : List String} {r : Replay} (hls : r.lines.drop r.nextIndex = ls)
    (unmarked : ∀ line ∈ ls.take ((consume ls r).nextIndex - r.nextIndex),
      markedBy? line = none) : (consume ls r).lastMarker = r.lastMarker := by
  induction ls generalizing r with
  | nil => rfl
  | cons line rest ih =>
    obtain ⟨hrest, hstep⟩ := drop_moveOn hls
    have hlt := lt_length_of_drop hls
    have hmarker : markedBy? line = none → (r.moveOn.step line).2.lastMarker = r.lastMarker := by
      intro hline
      rw [lastMarker_step, hline]
      exact ite_self _
    simp only [consume] at unmarked ⊢
    split
    · next hempty =>
      rw [if_pos hempty] at unmarked
      exact ih hrest (forall_unmarked_behind r r.moveOn hlt rfl rfl unmarked).2
    · next hempty =>
      rw [if_neg hempty] at unmarked
      split
      · next hpauses =>
        rw [if_pos hpauses, nextIndex_step, nextIndex_moveOn, Nat.add_sub_cancel_left,
          List.take_succ_cons, List.forall_mem_cons] at unmarked
        exact hmarker unmarked.1
      · next hpauses =>
        rw [if_neg hpauses] at unmarked
        obtain ⟨hline, hbehind⟩ := forall_unmarked_behind r (r.moveOn.step line).2 hlt
          (lines_step ..) (nextIndex_step ..) unmarked
        exact (ih hstep hbehind).trans (hmarker hline)

/-- **An advance that consumes no marker** keeps the marker passed last. -/
theorem lastMarker_advance {r : Replay} (unmarked : ∀ line ∈ r.stretch, markedBy? line = none) :
    r.advance.lastMarker = r.lastMarker := by
  obtain ⟨q, hlines, hindex, hmarker, heq⟩ := r.exists_advance_eq
  rw [stretch, heq, ← hlines, ← hindex] at unmarked
  rw [heq, lastMarker_consume rfl unmarked, hmarker]

/-! ## The pause before -/

section Eve

variable {α : Type}

/-- The replay at the pause before the one at which `advanceUntil` ends. -/
def eve (p : Replay → Option α) (r : Replay) : Replay :=
  if h : r.advance.hasLines ∧ (p r.advance).isNone then eve p r.advance else r
termination_by r.remaining
decreasing_by exact remaining_advance_lt h.1

theorem advanceUntil_snd (p : Replay → Option α) (r : Replay) :
    (r.advanceUntil p).2 = (r.eve p).advance := by
  fun_induction advanceUntil p r with
  | case1 r hl a ha => rw [eve, dif_neg fun h => by simp [ha] at h]
  | case2 r hl hn ih => rw [eve, dif_pos ⟨hl, by rw [hn]; rfl⟩, ih]
  | case3 r hl => rw [eve, dif_neg fun h => hl h.1]

theorem exists_advances_eve (p : Replay → Option α) (r : Replay) :
    ∃ n, r.eve p = r.performAll (List.replicate n .advance) := by
  fun_induction eve p r with
  | case1 r h ih =>
    obtain ⟨n, hn⟩ := ih
    exact ⟨n + 1, hn⟩
  | case2 r h => exact ⟨0, rfl⟩

end Eve

/-! ## Overlays -/

theorem applyOverlayAtTop_fst {r : Replay} (h : r.WellFormed) :
    r.applyOverlayAtTop.1 = r.checkpointAtTop?.any (·.snapshot.isSome) := by
  cases hc : r.checkpointAtTop? with
  | none => simp [applyOverlayAtTop, hc]
  | some c => exact (applyOverlayAtTop_of_checkpoint h hc).1

/-- **An overlay is of the marker passed last.** -/
theorem Tracks.exists_lastMarked? {remembers : Prop} {r : Replay} (h : r.Tracks remembers)
    (hwf : r.WellFormed) (hshown : r.applyOverlayAtTop.1 = true) :
    ∃ frame before m, r.state.top? = some frame ∧
      lastMarked? (r.lines.take r.nextIndex) = some (before, m) ∧
      m.isAt frame.name frame.line = true := by
  rw [applyOverlayAtTop_fst hwf, Option.any_eq_true] at hshown
  obtain ⟨c, hc, -⟩ := hshown
  obtain ⟨frame, -, hframe, -⟩ := of_checkpointAtTop? hc
  obtain ⟨before, m, hlast, hm, -⟩ := h.bare_checkpointAtTop? hframe hc
  exact ⟨frame, before, m, hframe, hlast, hm⟩

/-- Among the lines behind the pause before there is a marker of the place of the current frame as
soon as there is a marker. -/
theorem Tracks.exists_marked {remembers : Prop} {q : Replay} (h : q.advance.Tracks remembers)
    (hwf : q.advance.WellFormed) (hshown : q.advance.applyOverlayAtTop.1 = true)
    (marked : ∃ line ∈ q.stretch, (markedBy? line).isSome) :
    ∃ frame, q.advance.state.top? = some frame ∧ frame.MarkedIn q.stretch := by
  obtain ⟨frame, before, m, hframe, hlast, hm⟩ := h.exists_lastMarked? hwf hshown
  have some : ∃ found, lastMarked? q.stretch = some found := by
    refine Option.ne_none_iff_exists'.1 fun hnone => ?_
    obtain ⟨line, hline, hmarked⟩ := marked
    rw [lastMarked?_eq_none_iff.1 hnone line hline] at hmarked
    cases hmarked
  obtain ⟨⟨before', m'⟩, hfound⟩ := some
  -- the last of these markers is the last one of all
  rw [take_advance, lastMarked?_append, hfound] at hlast
  obtain ⟨-, rfl⟩ := Prod.mk.inj (Option.some.inj hlast)
  obtain ⟨line, after, hstretch, hline, -⟩ := eq_append_of_lastMarked? hfound
  refine ⟨frame, hframe, line, ?_, m', hline, hm⟩
  rw [hstretch]
  exact List.mem_append_right _ List.mem_cons_self

/-- **Behind lines without a marker an overlay is shown again**, where the same place is reached. -/
theorem applyOverlayAtTop_of_unmarked {q : Replay} (hwf : q.WellFormed)
    (hwf' : q.advance.WellFormed) {frame frame' : Frame} (hframe : q.state.top? = some frame)
    (hframe' : q.advance.state.top? = some frame') (place : frame'.place = frame.place)
    (unmarked : ∀ line ∈ q.stretch, markedBy? line = none) :
    q.advance.applyOverlayAtTop.1 = q.applyOverlayAtTop.1 := by
  obtain ⟨name, line⟩ := Prod.mk.inj place
  rw [applyOverlayAtTop_fst hwf, applyOverlayAtTop_fst hwf']
  unfold checkpointAtTop? checkpointAt?
  rw [hframe, hframe', lastMarker_advance unmarked, checkpoints_advance, Option.bind_some,
    Option.bind_some, name, line]

end Replay

/-! ## Requests -/

namespace Session

/-- What a user may ask a session for. -/
inductive Request
  | start (stopOnEntry : Bool)
  | move (kind : Option StepKind)

/-- Does what is asked for. -/
def serve (s : Session) : Request → Option Stop × Session
  | .start stopOnEntry => s.start stopOnEntry
  | .move kind => s.move kind

/-- The session behind a list of requests. -/
def serveAll (s : Session) : List Request → Session
  | [] => s
  | request :: requests => (s.serve request).2.serveAll requests

/-- The replay at the pause before the one to which the request leads. -/
def eve (s : Session) : Request → Replay
  | .start _ => s.replay
  | .move kind => s.replay.eve fun r => r.pause.reason? s.breakpoints s.replay.depth kind

/-- The session at the pause to which the request leads, before a stop is made there. -/
def arrived (s : Session) (request : Request) : Session :=
  { s with replay := (s.eve request).advance }

variable {s : Session} {request : Request} {stop : Stop}

theorem serve_eq (s : Session) (request : Request) :
    ∃ reason, s.serve request = (s.arrived request).stopFor reason := by
  cases request with
  | start stopOnEntry => exact ⟨_, rfl⟩
  | move kind =>
    rw [serve, move_eq, moveUntil]
    dsimp only
    rw [Replay.advanceUntil_snd]
    exact ⟨_, rfl⟩

theorem stop_of_serve (h : (s.serve request).1 = some stop) :
    ∃ reason, (s.arrived request).stop reason = (stop, (s.serve request).2) := by
  obtain ⟨reason, heq⟩ := s.serve_eq request
  rw [heq] at h ⊢
  cases reason with
  | none => cases h
  | some reason =>
    cases h
    exact ⟨reason, rfl⟩

theorem shown_of_serve (h : (s.serve request).1 = some stop) :
    stop.overlay = (s.eve request).advance.applyOverlayAtTop.1 ∧
      stop.frames.head? = (s.eve request).advance.state.top? ∧
      (s.serve request).2.replay.nextIndex = (s.eve request).advance.nextIndex := by
  obtain ⟨reason, heq⟩ := stop_of_serve h
  obtain ⟨hpause, -⟩ := pause_stop (s := s.arrived request) (s.eve request).saved_advance reason
  rw [heq] at hpause
  obtain ⟨hposition, -, hstack⟩ := Pause.mk.inj hpause
  refine ⟨?_, congrArg List.head? hstack, congrArg (Option.elim · 0 (· + 1)) hposition⟩
  exact congrArg (fun p : Stop × Session => p.1.overlay) heq.symm

/-! ## Operations of a session -/

/-- The replay of a session comes from another one by operations that forget no marker. -/
def Operates (r r' : Replay) : Prop :=
  ∃ ops, Operation.forgetMarker ∉ ops ∧ r' = r.performAll ops

theorem Operates.trans {r r' r'' : Replay} (h : Operates r r') (h' : Operates r' r'') :
    Operates r r'' := by
  obtain ⟨ops, hops, rfl⟩ := h
  obtain ⟨ops', hops', rfl⟩ := h'
  refine ⟨ops ++ ops', fun hmem => ?_, (r.performAll_append ops ops').symm⟩
  exact (List.mem_append.1 hmem).elim hops hops'

theorem Operates.single (r : Replay) (op : Operation) (h : op ≠ .forgetMarker) :
    Operates r (r.perform op) :=
  ⟨[op], by simpa using h.symm, rfl⟩

theorem operates_eve (s : Session) (request : Request) : Operates s.replay (s.eve request) := by
  cases request with
  | start => exact ⟨[], List.not_mem_nil, rfl⟩
  | move kind =>
    obtain ⟨n, hn⟩ := s.replay.exists_advances_eve
      fun r => r.pause.reason? s.breakpoints s.replay.depth kind
    refine ⟨_, fun hmem => ?_, hn⟩
    cases List.eq_of_mem_replicate hmem

theorem operates_stop (s : Session) (reason : StopReason) :
    Operates s.replay (s.stop reason).2.replay := by
  have shown : Operates s.replay s.replay.applyOverlayAtTop.2 :=
    .single s.replay .applyOverlayAtTop (by simp)
  refine shown.trans ?_
  show Operates _ (visibleScopes s.replay.applyOverlayAtTop.2).2
  unfold visibleScopes
  split
  · exact ⟨[], List.not_mem_nil, rfl⟩
  · next top _ => exact .single _ (.scopes top.id) (by simp)

/-- **A session makes operations of its replay.** -/
theorem operates_serve (s : Session) (request : Request) :
    Operates s.replay (s.serve request).2.replay := by
  have arrived : Operates s.replay (s.arrived request).replay :=
    (s.operates_eve request).trans (.single _ .advance (by simp))
  obtain ⟨reason, heq⟩ := s.serve_eq request
  rw [heq]
  cases reason with
  | none => exact arrived
  | some reason => exact arrived.trans (operates_stop _ reason)

theorem operates_serveAll (s : Session) (requests : List Request) :
    Operates s.replay (s.serveAll requests).replay := by
  induction requests generalizing s with
  | nil => exact ⟨[], List.not_mem_nil, rfl⟩
  | cons request requests ih => exact (s.operates_serve request).trans (ih _)

section Scanned

variable {config : Config} {resolver : Resolver} {lines : List String} {r : Replay}

theorem Operates.wellFormed (h : Operates (Replay.fresh config resolver lines).scan.2 r) :
    r.WellFormed := by
  obtain ⟨ops, -, rfl⟩ := h
  exact ((Replay.wellFormed_fresh config resolver lines).perform .scan).run ops

theorem Operates.lines_eq (h : Operates (Replay.fresh config resolver lines).scan.2 r) :
    r.lines = lines := by
  obtain ⟨ops, -, rfl⟩ := h
  exact Replay.invariant_performAll (I := fun r => r.lines = lines) ops
    (fun op _ h => (Replay.lines_perform _ op).trans h) (Replay.lines_perform _ .scan)

theorem Operates.tracks (h : Operates (Replay.fresh config resolver lines).scan.2 r) :
    r.Tracks True := by
  obtain ⟨ops, hops, rfl⟩ := h
  have tracks := (Replay.tracks_scan_fresh (.forgetMarker ∉ ops) config resolver lines).run
  rwa [eq_true hops] at tracks

end Scanned

/-! ## Overlays that are new -/

/-- A session at the beginning of a log that has been searched, with snapshots given by id. -/
def ofLog (config : Config) (resolver : Resolver) (lines : List String)
    (snapshots : List (String × Snapshot)) (breakpoints : List Breakpoint) : Session where
  replay := (Replay.fresh config resolver lines).scan.2.performAll
    (snapshots.map fun given => .setSnapshot given.1 given.2)
  breakpoints := breakpoints

theorem operates_ofLog (config : Config) (resolver : Resolver) (lines : List String)
    (snapshots : List (String × Snapshot)) (breakpoints : List Breakpoint) :
    Operates (Replay.fresh config resolver lines).scan.2
      (ofLog config resolver lines snapshots breakpoints).replay := by
  refine ⟨_, fun hmem => ?_, rfl⟩
  obtain ⟨_, -, heq⟩ := List.mem_map.1 hmem
  cases heq

/-- When the stop shows an overlay, a marker of the place of its current frame has been consumed
since the pause before. -/
def Renews (s : Session) (request : Request) : Prop :=
  ∀ stop, (s.serve request).1 = some stop → stop.overlay = true →
    ∃ frame, stop.frames.head? = some frame ∧ frame.MarkedIn (s.eve request).stretch

/-- When the stop shows an overlay, some marker has been consumed since the pause before. -/
def PassesMarker (s : Session) (request : Request) : Prop :=
  ∀ stop, (s.serve request).1 = some stop → stop.overlay = true →
    ∃ line ∈ (s.eve request).stretch, (markedBy? line).isSome

/-- **When the overlay of a stop is a new one.** Let a log be searched, snapshots be given by id,
and a session be started and moved in any way. Overlays are of the place of the marker passed last,
however far back it is. So a stop that shows one has passed a marker of its place since the pause
before as soon as it has passed a marker at all. Where it has passed none and stands at the place of
the pause before, it shows an overlay exactly when this one did. -/
theorem renews_iff (config : Config) (resolver : Resolver) (lines : List String)
    (snapshots : List (String × Snapshot)) (breakpoints : List Breakpoint)
    (requests : List Request) (request : Request) :
    let s := (ofLog config resolver lines snapshots breakpoints).serveAll requests
    (s.Renews request ↔ s.PassesMarker request) ∧
    ∀ stop frame, (s.serve request).1 = some stop → stop.frames.head? = some frame →
      (stop.overlay = true → ∃ before m,
        lastMarked? (lines.take (s.serve request).2.replay.nextIndex) = some (before, m) ∧
          m.isAt frame.name frame.line = true) ∧
      ∀ frame', (s.eve request).state.top? = some frame' → frame.place = frame'.place →
        (∀ line ∈ (s.eve request).stretch, markedBy? line = none) →
          stop.overlay = (s.eve request).applyOverlayAtTop.1 := by
  intro s
  have reached : Operates (Replay.fresh config resolver lines).scan.2 (s.eve request) :=
    ((operates_ofLog config resolver lines snapshots breakpoints).trans
      (operates_serveAll _ requests)).trans (s.operates_eve request)
  have arrived := reached.trans (.single _ .advance (by simp))
  refine ⟨⟨fun h stop hstop hoverlay => ?_, fun h stop hstop hoverlay => ?_⟩,
    fun stop frame hstop hframe => ⟨fun hoverlay => ?_, fun frame' hframe' hplace hnone => ?_⟩⟩
  · obtain ⟨frame, -, line, hline, m, hm, -⟩ := h stop hstop hoverlay
    exact ⟨line, hline, by rw [hm]; rfl⟩
  · obtain ⟨hshown, hframes, -⟩ := shown_of_serve hstop
    rw [hframes]
    exact arrived.tracks.exists_marked arrived.wellFormed (hshown ▸ hoverlay) (h stop hstop hoverlay)
  · obtain ⟨hshown, hframes, hindex⟩ := shown_of_serve hstop
    obtain ⟨frame', before, m, hframe', hlast, hm⟩ :=
      arrived.tracks.exists_lastMarked? arrived.wellFormed (hshown ▸ hoverlay)
    cases (hframes.symm.trans hframe).symm.trans hframe'
    replace hlast := arrived.lines_eq ▸ hlast
    exact ⟨before, m, hindex ▸ hlast, hm⟩
  · obtain ⟨hshown, hframes, -⟩ := shown_of_serve hstop
    rw [hshown]
    exact Replay.applyOverlayAtTop_of_unmarked reached.wellFormed arrived.wellFormed hframe'
      (hframes.symm.trans hframe) hplace hnone

/-- A line with a marker before it is executed twice. -/
def repeatedLog : List String :=
  ["62.0 APEX_CODE,FINEST",
    "0|METHOD_ENTRY|[1]|1|A.f()",
    "0|HEAP_DUMP|[2]|s1|A||2",
    "0|STATEMENT_EXECUTE|[2]",
    "0|STATEMENT_EXECUTE|[2]"]

/-- A session that replays it, with a snapshot for the marker. -/
def repeated : Session := ofLog {} (fun _ => none) repeatedLog [("s1", ⟨[]⟩)] []

set_option maxRecDepth 100000 in
/-- The overlay of the first stop is a new one; the second stop shows one since the first did. -/
theorem renews_repeated :
    let s := repeated.serveAll [.start false]
    let t := repeated.serveAll [.start false, .move none]
    (s.Renews (.move none) ∧ ∃ stop frame, (s.serve (.move none)).1 = some stop ∧
      stop.frames.head? = some frame ∧ stop.overlay = true ∧
      ∃ before m, lastMarked? (repeatedLog.take (s.serve (.move none)).2.replay.nextIndex) =
        some (before, m) ∧ m.isAt frame.name frame.line = true) ∧
    ∃ stop, (t.serve (.move none)).1 = some stop ∧
      (∀ line ∈ (t.eve (.move none)).stretch, markedBy? line = none) ∧
      stop.overlay = (t.eve (.move none)).applyOverlayAtTop.1 := by
  intro s t
  have first := renews_iff {} (fun _ => none) repeatedLog [("s1", ⟨[]⟩)] [] [.start false]
    (.move none)
  have second := renews_iff {} (fun _ => none) repeatedLog [("s1", ⟨[]⟩)] []
    [.start false, .move none] (.move none)
  obtain ⟨hstop, hmarked⟩ : (s.serve (.move none)).1.map
        (fun stop => (stop.frames.head?.isSome, stop.overlay)) = some (true, true) ∧
      ∃ line ∈ (s.eve (.move none)).stretch, (markedBy? line).isSome := by
    decide +kernel
  obtain ⟨hagain, hplace, hnone⟩ : (t.serve (.move none)).1.map
        (·.frames.head?.map Frame.place) = some (some ("A.f()", 2)) ∧
      (t.eve (.move none)).state.top?.map Frame.place = some ("A.f()", 2) ∧
      ∀ line ∈ (t.eve (.move none)).stretch, markedBy? line = none := by
    decide +kernel
  constructor
  · obtain ⟨stop, hstop, heq⟩ := Option.map_eq_some_iff.1 hstop
    obtain ⟨hframe, hoverlay⟩ := Prod.mk.inj heq
    obtain ⟨frame, hframe⟩ := Option.isSome_iff_exists.1 hframe
    exact ⟨first.1.2 fun _ _ _ => hmarked, stop, frame, hstop, hframe, hoverlay,
      (first.2 stop frame hstop hframe).1 hoverlay⟩
  · obtain ⟨stop, hstop, hframe⟩ := Option.map_eq_some_iff.1 hagain
    obtain ⟨frame, hframe, heq⟩ := Option.map_eq_some_iff.1 hframe
    obtain ⟨frame', hframe', heq'⟩ := Option.map_eq_some_iff.1 hplace
    exact ⟨stop, hstop, hnone,
      (second.2 stop frame hstop hframe).2 frame' hframe' (heq.trans heq'.symm) hnone⟩

set_option maxRecDepth 100000 in
/-- The second stop shows it again, with no marker since the first one. -/
theorem not_renews_repeated :
    ¬ (repeated.serveAll [.start false, .move none]).Renews (.move none) := by
  intro h
  obtain ⟨hstop, hnone⟩ : ((repeated.serveAll [.start false, .move none]).serve
        (.move none)).1.map (·.overlay) = some true ∧
      ∀ line ∈ ((repeated.serveAll [.start false, .move none]).eve (.move none)).stretch,
        markedBy? line = none := by
    decide +kernel
  obtain ⟨stop, hstop, hoverlay⟩ := Option.map_eq_some_iff.1 hstop
  obtain ⟨frame, -, line, hline, m, hm, -⟩ := h stop hstop hoverlay
  rw [hnone line hline] at hm
  cases hm

end Session

end Retrace
