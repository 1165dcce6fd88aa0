import Retrace.Proofs.Session.Navigation

/-!
# Runs with a limit

A run with a limit goes the way of the run without one, and ends earlier. The stop at the beginning
of the log is made before the limit is looked at, so a limit of zero does not keep it back.

* `Session.accept`: the user who refuses no stop.
* `Session.runOn_of_limit`, `Session.runOn_of_end`, `Session.runOn_of_stop`: what a run does next.
* `Session.legs_runOn`: from where a session stands, a limit cuts off the later parts of the run.
* `Session.result_runOn`: a run counts its stops.
* **`Session.takesFirst_iff`**: when a run hands out as many of the stops as the limit says.
-/

namespace Retrace.Session

variable {ε : Type} {kind : Option StepKind} {limit : Option Nat} {s : Session}

/-- Refuses no stop. -/
def accept (ε : Type) (_ : Stop) : Except ε Unit := .ok ()

/-! ## The next part of a run -/

theorem stops_prepend (leg : Leg) (run : Run ε) :
    (run.prepend leg).stops = leg.stop.toList ++ run.stops := by
  cases h : leg.stop <;> simp [Run.stops, Run.prepend, h]

theorem runOn_of_limit {m : Nat} (h : m ≤ s.stops) (onStop : Stop → Except ε Unit) :
    runOn kind (some m) onStop s = ⟨[], s, .ok s.stops⟩ := by
  rw [runOn, if_neg]
  simpa using h

theorem runOn_of_end (hlimit : limit.all (s.stops < ·) = true) (h : (s.move kind).1 = none)
    (onStop : Stop → Except ε Unit) : runOn kind limit onStop s =
      ⟨[⟨(s.move kind).2.takeMessages.1, none⟩], (s.move kind).2.takeMessages.2,
        .ok (s.move kind).2.stops⟩ := by
  rw [runOn, if_pos hlimit]
  split
  · next s' hmove =>
    rw [hmove]
    rfl
  · next stop s' hmove => simp [hmove] at h

theorem runOn_of_stop (hlimit : limit.all (s.stops < ·) = true) {stop : Stop}
    (h : (s.move kind).1 = some stop) : runOn kind limit (accept ε) s =
      (runOn kind limit (accept ε) (s.move kind).2.takeMessages.2).prepend
        ⟨(s.move kind).2.takeMessages.1, some stop⟩ := by
  rw [runOn, if_pos hlimit]
  split
  · next s' hmove => simp [hmove] at h
  · next stop' s' hmove =>
    have hstop : stop' = stop := by simpa [hmove] using h
    rw [hmove, hstop]
    rfl

theorem stops_move (s : Session) (kind : Option StepKind) :
    (s.move kind).2.stops = s.stops + (s.move kind).1.toList.length := by
  rw [move_eq, moveUntil]
  generalize s.replay.advanceUntil
    (fun r => r.pause.reason? s.breakpoints s.replay.depth kind) = found
  obtain ⟨reason, r⟩ := found
  cases reason <;> rfl

/-! ## The rest of a run -/

/-- **A limit cuts off the later parts of a run**: one part is left for each stop that the limit
leaves, and no stop is lost among them. -/
theorem legs_runOn (ε : Type) (kind : Option StepKind) (m : Nat) (s : Session) :
    (runOn kind (some m) (accept ε) s).legs =
        (runOn kind none (accept ε) s).legs.take (m - s.stops) ∧
      (runOn kind (some m) (accept ε) s).stops =
        (runOn kind none (accept ε) s).stops.take (m - s.stops) := by
  -- on the lines that are left, which a move to a stop uses up
  induction hn : s.replay.remaining using Nat.strong_induction_on generalizing s with
  | _ n ih =>
    subst hn
    by_cases hm : m ≤ s.stops
    · rw [runOn_of_limit hm, Nat.sub_eq_zero_of_le hm]
      exact ⟨rfl, rfl⟩
    · have hlimit : (some m).all (s.stops < ·) = true := by simpa using hm
      cases hmove : (s.move kind).1 with
      | none =>
        rw [runOn_of_end hlimit hmove, runOn_of_end rfl hmove]
        obtain ⟨k, hk⟩ : ∃ k, m - s.stops = k + 1 := ⟨m - s.stops - 1, by omega⟩
        rw [hk]
        exact ⟨by simp, by simp [Run.stops]⟩
      | some stop =>
        have hcount : (s.move kind).2.takeMessages.2.stops = s.stops + 1 := by
          have h := s.stops_move kind
          rwa [hmove] at h
        obtain ⟨hlegs, hstops⟩ :=
          ih _ (remaining_move_lt hmove) (s.move kind).2.takeMessages.2 rfl
        have hleft : m - s.stops = m - (s.move kind).2.takeMessages.2.stops + 1 := by omega
        rw [runOn_of_stop hlimit hmove, runOn_of_stop rfl hmove, hleft]
        constructor
        · simp only [Run.prepend, List.take_succ_cons, hlegs]
        · rw [stops_prepend, stops_prepend, hstops]
          rfl

/-- **A run counts its stops**, with or without a limit. -/
theorem result_runOn (ε : Type) (kind : Option StepKind) (limit : Option Nat) (s : Session) :
    (runOn kind limit (accept ε) s).result =
      .ok (s.stops + (runOn kind limit (accept ε) s).stops.length) := by
  induction hn : s.replay.remaining using Nat.strong_induction_on generalizing s with
  | _ n ih =>
    subst hn
    by_cases hlimit : limit.all (s.stops < ·) = true
    · have hcount := s.stops_move kind
      cases hmove : (s.move kind).1 with
      | none =>
        rw [hmove] at hcount
        rw [runOn_of_end hlimit hmove, hcount]
        rfl
      | some stop =>
        rw [hmove] at hcount
        have h := ih _ (remaining_move_lt hmove) (s.move kind).2.takeMessages.2 rfl
        rw [runOn_of_stop hlimit hmove, stops_prepend, List.length_append, ← Nat.add_assoc]
        refine h.trans ?_
        rw [← hcount]
        rfl
    · rw [runOn, if_neg hlimit]
      rfl

/-! ## Whole runs -/

/-- The run with a limit hands out the first stops of the run without one, as many as the limit
says, or all when there are fewer, and returns their number. -/
def TakesFirst (ε : Type) (s : Session) (stopOnEntry : Bool) (kind : Option StepKind) (m : Nat) :
    Prop :=
  (s.run stopOnEntry kind (some m) (accept ε)).stops =
      (s.run stopOnEntry kind none (accept ε)).stops.take m ∧
    (s.run stopOnEntry kind (some m) (accept ε)).result =
      .ok (min m (s.run stopOnEntry kind none (accept ε)).stops.length)

theorem run_accept (s : Session) (stopOnEntry : Bool) (kind : Option StepKind)
    (limit : Option Nat) : s.run stopOnEntry kind limit (accept ε) =
      (runOn kind limit (accept ε) (s.start stopOnEntry).2.takeMessages.2).prepend
        ⟨(s.start stopOnEntry).2.takeMessages.1, (s.start stopOnEntry).1⟩ := by
  cases stopOnEntry <;> rfl

theorem stops_start (s : Session) (stopOnEntry : Bool) :
    (s.start stopOnEntry).2.takeMessages.2.stops =
      s.stops + (s.start stopOnEntry).1.toList.length := by
  cases stopOnEntry <;> rfl

/-- **The limit cuts off the later parts of a run**, but never the one at the beginning of the
log. -/
theorem run_limit (h : s.stops = 0) (stopOnEntry : Bool) (kind : Option StepKind) (m : Nat) :
    (s.run stopOnEntry kind (some m) (accept ε)).legs =
        (s.run stopOnEntry kind none (accept ε)).legs.take
          (if stopOnEntry then max 1 m else m + 1) ∧
      (s.run stopOnEntry kind (some m) (accept ε)).stops =
        (s.run stopOnEntry kind none (accept ε)).stops.take
          (if stopOnEntry then max 1 m else m) := by
  obtain ⟨hlegs, hstops⟩ := legs_runOn ε kind m (s.start stopOnEntry).2.takeMessages.2
  rw [stops_start, h, Nat.zero_add] at hlegs hstops
  rw [run_accept, run_accept, stops_prepend, stops_prepend, hstops]
  simp only [Run.prepend, hlegs]
  cases stopOnEntry with
  | false => exact ⟨rfl, rfl⟩
  | true =>
    cases m with
    | zero => exact ⟨rfl, rfl⟩
    | succ m =>
      have hmax : max 1 (m + 1) = m + 1 := by omega
      rw [if_pos rfl, hmax]
      exact ⟨rfl, rfl⟩

theorem result_run (h : s.stops = 0) (stopOnEntry : Bool) (kind : Option StepKind)
    (limit : Option Nat) : (s.run stopOnEntry kind limit (accept ε)).result =
      .ok (s.run stopOnEntry kind limit (accept ε)).stops.length := by
  have hrest := result_runOn ε kind limit (s.start stopOnEntry).2.takeMessages.2
  rw [stops_start, h, Nat.zero_add] at hrest
  rw [run_accept, stops_prepend, List.length_append]
  exact hrest

/-- **A limit does not hold back the stop at the beginning of the log.** A run hands out the first
stops of the run without a limit, as many as the limit says, exactly when the limit is not zero or
the beginning of the log is no stop. With a limit of zero it hands out the stop at the beginning,
and no other. The parts of the run, with the messages written in them, are cut in the same way. -/
theorem takesFirst_iff (r : Replay) (breakpoints : List Breakpoint) (stopOnEntry : Bool)
    (kind : Option StepKind) (m : Nat) :
    let s : Session := { replay := r, breakpoints }
    let whole := s.run stopOnEntry kind none (accept ε)
    let limited := s.run stopOnEntry kind (some m) (accept ε)
    (s.TakesFirst ε stopOnEntry kind m ↔ (stopOnEntry = true → m ≠ 0)) ∧
      limited.stops = whole.stops.take (if stopOnEntry then max 1 m else m) ∧
      limited.result = .ok limited.stops.length ∧
      limited.legs = whole.legs.take (if stopOnEntry then max 1 m else m + 1) := by
  intro s whole limited
  obtain ⟨hlegs, hstops⟩ :
      limited.legs = whole.legs.take (if stopOnEntry then max 1 m else m + 1) ∧
        limited.stops = whole.stops.take (if stopOnEntry then max 1 m else m) :=
    run_limit rfl stopOnEntry kind m
  have hresult : limited.result = .ok limited.stops.length :=
    result_run rfl stopOnEntry kind (some m)
  refine ⟨⟨?_, ?_⟩, hstops, hresult, hlegs⟩
  · rintro ⟨htake, -⟩ rfl rfl
    -- the stop at the beginning has been made
    have hentry : limited.stops ≠ [] := by
      show (s.run true kind (some 0) (accept ε)).stops ≠ []
      rw [run_accept, stops_prepend]
      exact List.cons_ne_nil _ _
    exact hentry htake
  · intro h
    have hcount : (if stopOnEntry then max 1 m else m) = m := by
      split
      · next hentry =>
        have := h hentry
        omega
      · rfl
    rw [hcount] at hstops
    refine ⟨hstops, hresult.trans ?_⟩
    rw [hstops, List.length_take]

/-- A log of one line. -/
def headerOnly : Session := { replay := .fresh {} (fun _ => none) ["62.0 APEX_CODE,FINEST"] }

/-- With a limit of zero the stop at the beginning of the log is made and counted. -/
theorem not_takesFirst_headerOnly :
    let limited := headerOnly.run true none (some 0) (accept Empty)
    limited.stops.map (·.reason) = [.entry] ∧ limited.result = .ok 1 ∧
      ¬ headerOnly.TakesFirst Empty true none 0 := by
  intro limited
  have hstops : limited.stops.map (·.reason) = [.entry] := by
    show ((headerOnly.run true none (some 0) (accept Empty)).stops.map (·.reason)) = _
    rw [run_accept, runOn_of_limit (Nat.zero_le _)]
    rfl
  refine ⟨hstops, ?_, fun h => ?_⟩
  · show (headerOnly.run true none (some 0) (accept Empty)).result = _
    rw [run_accept, runOn_of_limit (Nat.zero_le _)]
    rfl
  · have hnone : limited.stops = [] := h.1
    rw [hnone] at hstops
    cases hstops

end Retrace.Session
