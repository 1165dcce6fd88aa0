import Retrace.Proofs.Replay.Depths
import Retrace.Proofs.Session.Renewal

/-!
# Steps by call depth

A step over or out ends at the first pause at which few enough calls are active. Which calls these
are plays no part in it: where calls have ended on the way and others have begun, the call at the
depth reached may be one that was not active when the step began.

* `Replay.turnsUntil`: the turns of a search by advances.
* `Session.LandsAmong`, `Session.KeepsDepth`: a step that ends in one of the frames given, and one
  on whose way no line leaves fewer calls than there are at its end.
* `Session.landsAmong_iff_of_suffix`: they are the same for frames at the bottom of the stack.
* **`Session.landsAmong_iff`**: when steps over and out end in frames that were active before.
-/

set_option linter.unusedVariables false

namespace Retrace

namespace Replay

variable {α : Type}

/-- The turns of a search by advances. -/
def turnsUntil (p : Replay → Option α) (r : Replay) : List Turn :=
  r.turns 1 ++
    if h : r.advance.hasLines ∧ (p r.advance).isNone then turnsUntil p r.advance else []
termination_by r.remaining
decreasing_by exact remaining_advance_lt h.1

/-- **A search takes the course of its turns.** -/
theorem course_advanceUntil (p : Replay → Option α) (r : Replay) :
    Course r.current r.live (r.turnsUntil p) (r.advanceUntil p).2.current
      (r.advanceUntil p).2.live := by
  have c := r.course_advance
  fun_induction advanceUntil p r with
  | case1 r hl a ha =>
    rw [turnsUntil, dif_neg fun h => by simp [ha] at h, List.append_nil]
    exact c
  | case2 r hl hn ih =>
    rw [turnsUntil, dif_pos ⟨hl, by rw [hn]; rfl⟩]
    exact c.trans (ih r.advance.course_advance)
  | case3 r hl =>
    rw [turnsUntil, dif_neg fun h => hl h.1, List.append_nil]
    exact c

theorem eq_some_of_advanceUntil {p : Replay → Option α} {r : Replay} {a : α}
    (h : (r.advanceUntil p).1 = some a) : p (r.advanceUntil p).2 = some a := by
  fun_induction advanceUntil p r with
  | case1 r hl b hb =>
    rw [hb]
    exact h
  | case2 r hl hn ih => exact ih h
  | case3 => cases h

end Replay

theorem StepKind.completes_over {before now : Nat} :
    StepKind.over.completes before now = true ↔ now ≠ 0 ∧ now ≤ before := by
  simp [completes]

theorem StepKind.completes_out {before now : Nat} :
    StepKind.out.completes before now = true ↔ now ≠ 0 ∧ now < before := by
  simp [completes]

theorem State.exists_of_getElem?_frameIds {s : State} {frames : List Frame}
    (h : frames <:+ s.stack) {i id : Nat} (hi : i < frames.length)
    (hid : s.frameIds[i]? = some id) : ∃ frame ∈ frames, frame.id = id := by
  obtain ⟨above, hstack⟩ := h
  rw [frameIds, ← hstack, List.reverse_append, List.map_append,
    List.getElem?_append_left (by simpa using hi)] at hid
  simpa using List.mem_of_getElem? hid

namespace Session

variable {s : Session} {kind : StepKind} {stop : Stop}

/-! ## Steps -/

/-- The turns that a step takes. -/
def turnsOf (s : Session) (kind : StepKind) : List Turn :=
  s.replay.turnsUntil (stepReason? s.breakpoints kind s.replay.depth)

/-- When the step ends by call depth, the current frame is then one of those given. -/
def LandsAmong (s : Session) (kind : StepKind) (frames : List Frame) : Prop :=
  ∀ stop, (s.step kind).1 = some stop → stop.reason = .step →
    ∃ top, stop.frames.head? = some top ∧ ∃ frame ∈ frames, frame.id = top.id

/-- When the step ends by call depth, as many calls as are then active were active before every line
on the way. -/
def KeepsDepth (s : Session) (kind : StepKind) : Prop :=
  ∀ stop, (s.step kind).1 = some stop → stop.reason = .step →
    ∀ t ∈ s.turnsOf kind, stop.frames.length ≤ t.before.stack.length

/-- A step leads from the calls at its beginning to those at its end. -/
theorem course_of_step (h : (s.step kind).1 = some stop) (hreason : stop.reason = .step) :
    kind.completes s.replay.depth stop.frames.length = true ∧
      ∃ e s', Course s.replay.current s.replay.live (s.turnsOf kind) e s' ∧
        s'.stack = stop.frames := by
  have c := Replay.course_advanceUntil (stepReason? s.breakpoints kind s.replay.depth) s.replay
  have hsaved := Replay.saved_advanceUntil
    (stepReason? s.breakpoints kind s.replay.depth) s.replay
  have hfound := @Replay.eq_some_of_advanceUntil _
    (stepReason? s.breakpoints kind s.replay.depth) s.replay
  unfold step moveUntil at h
  change Course _ _ (s.turnsOf kind) _ _ at c
  generalize s.replay.advanceUntil (stepReason? s.breakpoints kind s.replay.depth) = found
    at h c hsaved hfound
  obtain ⟨reason, r⟩ := found
  cases reason with
  | none => cases h
  | some why =>
    have hstop : (Session.stop { s with replay := r } why).1 = stop := Option.some.inj h
    obtain ⟨hpause, -⟩ := pause_stop (s := { s with replay := r }) hsaved why
    have hframes : stop.frames = r.state.stack := by
      rw [← hstop]
      exact congrArg Pause.stack hpause
    have hstep : why = .step := by
      rw [← hreason, ← hstop]
      rfl
    rw [hframes]
    refine ⟨?_, _, _, c, ?_⟩
    · have hwhy : stepReason? s.breakpoints kind s.replay.depth r = some why := hfound rfl
      rw [hstep] at hwhy
      unfold stepReason? at hwhy
      split at hwhy
      · next hcompletes => exact hcompletes
      · split at hwhy <;> cases hwhy
    · show r.live.stack = r.state.stack
      rw [Replay.live, hsaved]
      rfl

/-! ## Where steps end -/

/-- **A step ends among frames at the bottom of the stack**, where depth lets it, exactly when the
depth at its end was never left on the way. -/
theorem landsAmong_iff_of_suffix (h : s.replay.WellFormed) {frames : List Frame}
    (suffix : frames <:+ s.replay.state.stack)
    (depth : ∀ n, kind.completes s.replay.depth n = true → n ≠ 0 ∧ n ≤ frames.length) :
    s.LandsAmong kind frames ↔ s.KeepsDepth kind := by
  have key : ∀ stop, (s.step kind).1 = some stop → stop.reason = .step →
      ((∃ top, stop.frames.head? = some top ∧ ∃ frame ∈ frames, frame.id = top.id) ↔
        ∀ t ∈ s.turnsOf kind, stop.frames.length ≤ t.before.stack.length) := by
    intro stop hstop hreason
    obtain ⟨hcompletes, e, s', c, hstack⟩ := course_of_step hstop hreason
    obtain ⟨hne, hle⟩ := depth _ hcompletes
    cases hframes : stop.frames with
    | nil => simp [hframes] at hne
    | cons top below =>
      rw [hframes] at hstack hle
      have htop : s'.frameIds[below.length]? = some top.id := by
        simp [State.frameIds, hstack]
      rw [h.shown.stack] at suffix
      constructor
      · rintro ⟨_, ⟨⟩, frame, hframe, hid⟩
        have hold := h.live.framed.id_lt_next (suffix.subset hframe)
        rw [hid] at hold
        exact c.deep_of_getElem? h.live.sound htop hold
      · intro hdeep
        have hlast : below.length < s'.stack.length := by simp [hstack]
        obtain ⟨-, hsame⟩ := c.getElem?_of_deep h.live.sound hlast hdeep
        rw [htop] at hsame
        exact ⟨top, rfl, State.exists_of_getElem?_frameIds suffix hle hsame.symm⟩
  exact ⟨fun h stop hstop hreason => (key stop hstop hreason).1 (h stop hstop hreason),
    fun h stop hstop hreason => (key stop hstop hreason).2 (h stop hstop hreason)⟩

/-- **When steps end in frames that were active before.** Let a log be searched, snapshots be given
by id, and a session be started and moved in any way. A step over that ends by call depth ends in
the frame that was current or in one of its callers, and a step out in one of the callers, exactly
when no line on the way leaves fewer calls active than there are at the end. Otherwise the call at
that depth ended on the way, and the step ends in a later one. -/
theorem landsAmong_iff (config : Config) (resolver : Resolver) (lines : List String)
    (snapshots : List (String × Snapshot)) (breakpoints : List Breakpoint)
    (requests : List Request) :
    let s := (ofLog config resolver lines snapshots breakpoints).serveAll requests
    (s.LandsAmong .over s.replay.state.stack ↔ s.KeepsDepth .over) ∧
      (s.LandsAmong .out s.replay.state.stack.tail ↔ s.KeepsDepth .out) := by
  intro s
  have h : s.replay.WellFormed :=
    ((operates_ofLog config resolver lines snapshots breakpoints).trans
      (operates_serveAll _ requests)).wellFormed
  constructor
  · exact landsAmong_iff_of_suffix h (List.suffix_refl _) fun n => StepKind.completes_over.1
  · refine landsAmong_iff_of_suffix h (List.tail_suffix _) fun n hn => ?_
    obtain ⟨hne, hlt⟩ := StepKind.completes_out.1 hn
    rw [List.length_tail]
    exact ⟨hne, Nat.le_sub_one_of_lt hlt⟩

/-- A call ends with its caller, and another one begins. -/
def replacedLog : List String :=
  ["62.0 APEX_CODE,FINEST",
    "0|METHOD_ENTRY|[1]|1|A.f()",
    "0|METHOD_ENTRY|[4]|1|A.g()",
    "0|STATEMENT_EXECUTE|[5]",
    "0|METHOD_EXIT|[4]|A.g()",
    "0|METHOD_EXIT|[1]|A.f()",
    "0|METHOD_ENTRY|[7]|1|A.h()",
    "0|STATEMENT_EXECUTE|[8]"]

/-- A session that has stopped in the first inner call. -/
def replaced : Session :=
  (ofLog {} (fun _ => none) replacedLog [] []).serveAll [.start false, .move none]

set_option maxRecDepth 100000 in
/-- Steps over and out from the inner call end in the later call. -/
theorem not_landsAmong_replaced :
    replaced.replay.current = some (.statement 5) ∧
      replaced.replay.state.stack.map (·.name) = ["A.g()", "A.f()"] ∧
      ¬ replaced.LandsAmong .over replaced.replay.state.stack ∧
      ¬ replaced.LandsAmong .out replaced.replay.state.stack.tail := by
  obtain ⟨hcurrent, hnames, hids, hover, hout⟩ :
      replaced.replay.current = some (.statement 5) ∧
        replaced.replay.state.stack.map (·.name) = ["A.g()", "A.f()"] ∧
        (∀ frame ∈ replaced.replay.state.stack, frame.id ≠ 1003) ∧
        (replaced.step .over).1.map (fun stop => (stop.reason, stop.frames.head?.map Frame.id)) =
          some (.step, some 1003) ∧
        (replaced.step .out).1.map (fun stop => (stop.reason, stop.frames.head?.map Frame.id)) =
          some (.step, some 1003) := by
    decide +kernel
  have later : ∀ kind, (replaced.step kind).1.map
        (fun stop => (stop.reason, stop.frames.head?.map Frame.id)) = some (.step, some 1003) →
      ∀ frames : List Frame, (∀ frame ∈ frames, frame ∈ replaced.replay.state.stack) →
        ¬ replaced.LandsAmong kind frames := by
    intro kind hstop frames hframes h
    obtain ⟨stop, hstop, heq⟩ := Option.map_eq_some_iff.1 hstop
    obtain ⟨hreason, hid⟩ := Prod.mk.inj heq
    obtain ⟨top, htop, frame, hframe, hsame⟩ := h stop hstop hreason
    rw [htop, Option.map_some, Option.some.injEq] at hid
    exact hids frame (hframes frame hframe) (hsame.trans hid)
  exact ⟨hcurrent, hnames, later .over hover _ fun _ h => h,
    later .out hout _ fun _ h => List.mem_of_mem_tail h⟩

end Session

end Retrace
