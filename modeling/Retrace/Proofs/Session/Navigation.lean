import Retrace.Proofs.Overlay.Frames
import Retrace.Proofs.Replay.Pauses
import Retrace.Proofs.Replay.Transparency
import Retrace.Session
import Mathlib.Data.List.TakeWhile

/-!
# Navigation of sessions

A session stops at pauses that bare advances find, and which of them are stops depends on the
breakpoints and the moves only. Overlays that are shown at a stop are gone when the session goes on.

* `Pause.reason?`: why a pause is a stop.
* `itinerary`: the stops of a list of moves, from the pauses alone.
* `itinerary_of_none`: once a move makes no stop, none does.
* `Session.landings`: the stops that a session makes.
* `Session.pauses_stop`: a stop leaves the pauses ahead as they are.
* **`Session.landings_eq_itinerary`**: a session makes the stops of the itinerary.
-/

namespace Retrace

/-! ## Stops among pauses -/

/-- Whether the pause is at a statement whose source and line a breakpoint hits. -/
def Pause.hits (breakpoints : List Breakpoint) (p : Pause) : Bool :=
  match p.event with
  | some (.statement _) =>
    p.stack.head?.any fun frame => isBreakable breakpoints frame.source frame.line
  | _ => false

/-- Why a pause is a stop of a move that begins with `before` active calls. A move by call depth ends
where it is complete, or at a breakpoint; a move to the next stop ends at a breakpoint, and without
any breakpoints everywhere. -/
def Pause.reason? (breakpoints : List Breakpoint) (before : Nat) (p : Pause) :
    Option StepKind → Option StopReason
  | some kind =>
    if kind.completes before p.stack.length then some .step
    else if p.hits breakpoints then some .breakpoint
    else none
  | none =>
    if p.hits breakpoints then some .breakpoint
    else if breakpoints.isEmpty then some .step
    else none

/-- A stop as it is compared: its number, its reason and its pause. -/
structure Landing where
  index : Nat
  reason : StopReason
  pause : Pause
  deriving DecidableEq

/-- The stops of moves through a list of pauses, from `before` active calls and with `stops` stops
made. A move stops at the first pause that is a stop, and the later ones remain; when none is, none
remains. -/
def itinerary (breakpoints : List Breakpoint) :
    List (Option StepKind) → List Pause → Nat → Nat → List (Option Landing)
  | [], _, _, _ => []
  | kind :: kinds, ps, before, stops =>
    let found := ps.findSome? fun p => (p.reason? breakpoints before kind).map fun why => (why, p)
    let rest := (ps.dropWhile fun p => (p.reason? breakpoints before kind).isNone).tail
    match found with
    | some (why, p) =>
      some ⟨stops + 1, why, p⟩ :: itinerary breakpoints kinds rest p.stack.length (stops + 1)
    | none => none :: itinerary breakpoints kinds rest before stops

theorem itinerary_nil (breakpoints : List Breakpoint) (kinds : List (Option StepKind))
    (before stops : Nat) :
    itinerary breakpoints kinds [] before stops = kinds.map fun _ => none := by
  induction kinds with
  | nil => rfl
  | cons kind kinds ih => simpa [itinerary] using ih

theorem dropWhile_of_findSome? {α β : Type} {g : α → Option β} {l : List α}
    (h : l.findSome? (fun a => (g a).map fun b => (b, a)) = none) :
    l.dropWhile (fun a => (g a).isNone) = [] := by
  rw [List.findSome?_eq_none_iff] at h
  rw [List.dropWhile_eq_nil_iff]
  intro a ha
  simpa using h a ha

/-- **Once a move makes no stop, none does.** -/
theorem itinerary_of_none {breakpoints : List Breakpoint} {kind : Option StepKind}
    {ps : List Pause} {before : Nat}
    (h : ps.findSome? (fun p => (p.reason? breakpoints before kind).map fun why => (why, p)) =
      none) (kinds : List (Option StepKind)) (stops : Nat) :
    itinerary breakpoints (kind :: kinds) ps before stops =
      none :: kinds.map fun _ => none := by
  rw [itinerary, h, dropWhile_of_findSome? h, List.tail_nil]
  exact congrArg _ (itinerary_nil breakpoints kinds before stops)

namespace Session

/-- The stop that a move makes, with the place where the replay stands then and the frames that the
stop shows. -/
def landing (s : Session) (kind : Option StepKind) : Option Landing :=
  (s.move kind).1.map fun stop =>
    ⟨stop.index, stop.reason,
      ⟨(s.move kind).2.replay.position, (s.move kind).2.replay.current, stop.frames⟩⟩

/-- The stops that moves make one after the other. -/
def landings : List (Option StepKind) → Session → List (Option Landing)
  | [], _ => []
  | kind :: kinds, s => s.landing kind :: landings kinds (s.move kind).2

/-! ## A stop -/

theorem stack_applyOverlayAtTop {r : Replay} (h : r.saved = none) :
    r.applyOverlayAtTop.2.state.stack = r.state.stack := by
  have hlive : r.revertOverlay.2.state.stack = r.state.stack := by
    rw [Replay.state_revertOverlay, Replay.live, h, Option.getD_none]
  unfold Replay.applyOverlayAtTop
  split
  · unfold Replay.applyOverlay
    dsimp only
    split
    · exact hlive
    · show (State.overlay _ _ _).stack = _
      rw [State.stack_overlay, hlive]
  · rfl

theorem stack_visibleScopes (r : Replay) : (visibleScopes r).2.state.stack = r.state.stack := by
  unfold visibleScopes
  split
  · rfl
  · next top _ =>
    obtain ⟨handles, h, -⟩ := r.scopes_snd top.id
    show (r.scopes top.id).2.state.stack = _
    rw [h]
    rfl

/-- Below its overlay the replay at a stop is the one before. -/
theorem matches_stop (s : Session) (reason : StopReason) :
    (s.stop reason).2.replay.revertOverlay.2.Matches State.Alike s.replay.revertOverlay.2 := by
  show (visibleScopes s.replay.applyOverlayAtTop.2).2.revertOverlay.2.Matches _ _
  rw [← Replay.revertOverlay_applyOverlayAtTop s.replay]
  unfold visibleScopes
  split
  · exact ⟨rfl, rfl, rfl, rfl, rfl, rfl, .refl _⟩
  · exact Replay.matches_scopes State.Alike.refl _ _ (.inr fun _ _ h => h)

theorem pauses_stop (s : Session) (reason : StopReason) :
    (s.stop reason).2.replay.pauses = s.replay.pauses :=
  (s.matches_stop reason).pauses State.stable_alike

theorem pause_stop {s : Session} (h : s.replay.saved = none) (reason : StopReason) :
    (⟨(s.stop reason).2.replay.position, (s.stop reason).2.replay.current,
      (s.stop reason).1.frames⟩ : Pause) = s.replay.pause ∧
      (s.stop reason).2.replay.state.stack = s.replay.state.stack := by
  have hm := s.matches_stop reason
  have hstack : (s.stop reason).2.replay.state.stack = s.replay.state.stack := by
    show (visibleScopes s.replay.applyOverlayAtTop.2).2.state.stack = _
    rw [stack_visibleScopes, stack_applyOverlayAtTop h]
  have hposition : (s.stop reason).2.replay.position = s.replay.position := by
    have := hm.position
    rwa [Replay.position_revertOverlay, Replay.position_revertOverlay] at this
  have hcurrent : (s.stop reason).2.replay.current = s.replay.current := by
    have := hm.current
    rwa [Replay.revertOverlay_snd, Replay.revertOverlay_snd] at this
  refine ⟨?_, hstack⟩
  rw [hposition, hcurrent]
  exact congrArg _ hstack

/-! ## A move -/

theorem move_eq (s : Session) (kind : Option StepKind) :
    s.move kind = s.moveUntil fun r => r.pause.reason? s.breakpoints s.replay.depth kind := by
  cases kind <;> rfl

/-- The stop of a move is at the first pause ahead that is one, and the later pauses lie ahead of
it. -/
theorem landing_eq (s : Session) (kind : Option StepKind) :
    s.landing kind = ((s.replay.pauses.findSome? fun p =>
        (p.reason? s.breakpoints s.replay.depth kind).map fun why => (why, p)).map
          fun (why, p) => ⟨s.stops + 1, why, p⟩) ∧
      (s.move kind).2.replay.pauses = (s.replay.pauses.dropWhile fun p =>
        (p.reason? s.breakpoints s.replay.depth kind).isNone).tail ∧
      (s.move kind).2.breakpoints = s.breakpoints ∧
      (s.landing kind).elim ((s.move kind).2.stops = s.stops) fun l =>
        (s.move kind).2.stops = s.stops + 1 ∧
          (s.move kind).2.replay.depth = l.pause.stack.length := by
  obtain ⟨hfound, hrest⟩ := Replay.advanceUntil_eq
    (p := fun r => r.pause.reason? s.breakpoints s.replay.depth kind)
    (g := fun p => p.reason? s.breakpoints s.replay.depth kind) (fun _ => rfl) s.replay
  have hsaved := Replay.saved_advanceUntil
    (fun r => r.pause.reason? s.breakpoints s.replay.depth kind) s.replay
  rw [← hfound, ← hrest]
  unfold landing
  rw [move_eq, moveUntil]
  generalize s.replay.advanceUntil
    (fun r => r.pause.reason? s.breakpoints s.replay.depth kind) = found at hsaved
  obtain ⟨reason, r⟩ := found
  dsimp only at hsaved ⊢
  cases reason with
  | none => exact ⟨rfl, rfl, rfl, rfl⟩
  | some why =>
    obtain ⟨hpause, hstack⟩ := pause_stop (s := { s with replay := r }) hsaved why
    refine ⟨?_, pauses_stop _ why, rfl, rfl, ?_⟩
    · exact congrArg (fun p => some (⟨s.stops + 1, why, p⟩ : Landing)) hpause
    · show (stop { s with replay := r } why).2.replay.state.stack.length =
        (stop { s with replay := r } why).1.frames.length
      rw [hstack]
      exact congrArg (·.stack.length) hpause.symm

/-! ## Moves -/

theorem landings_eq (kinds : List (Option StepKind)) (s : Session) :
    landings kinds s =
      itinerary s.breakpoints kinds s.replay.pauses s.replay.depth s.stops := by
  induction kinds generalizing s with
  | nil => rfl
  | cons kind kinds ih =>
    obtain ⟨hl, hrest, hb, hnext⟩ := s.landing_eq kind
    rw [landings, ih, hrest, hb]
    rw [hl] at hnext ⊢
    cases hf : s.replay.pauses.findSome? fun p =>
        (p.reason? s.breakpoints s.replay.depth kind).map fun why => (why, p) with
    | some found =>
      rw [hf] at hnext
      obtain ⟨hstops, hdepth⟩ := hnext
      rw [itinerary, hf, hstops, hdepth]
      rfl
    | none =>
      rw [itinerary_of_none hf, dropWhile_of_findSome? hf, List.tail_nil, itinerary_nil]
      rfl

/-- **Navigation.** Whatever checkpoints with whatever snapshots a session has, and wherever its
marker stands: once started it makes the stops of the itinerary through the pauses behind the
beginning of the log. These are where one, two and more bare advances of the plain replay end, as
long as they do not run off the log. The beginning is the first stop when asked for. -/
theorem landings_eq_itinerary (config : Config) (resolver : Resolver) (lines : List String)
    (breakpoints : List Breakpoint) (checkpoints : List Checkpoint)
    (lastMarker : Option (String × Nat)) (messages : List Message) (stopOnEntry : Bool)
    (kinds : List (Option StepKind)) :
    let plain := Replay.fresh config resolver lines
    let s : Session :=
      { replay := { plain with checkpoints, lastMarker, messages }, breakpoints }
    (∀ i, plain.pauses[i]? = if (plain.advances (i + 1)).hasLines
        then some (plain.advances (i + 1)).pause else none) ∧
      landings kinds (s.start stopOnEntry).2 =
        itinerary breakpoints kinds plain.pauses.tail plain.advance.depth
          (if stopOnEntry then 1 else 0) ∧
      (s.start stopOnEntry).1.map (·.index) = if stopOnEntry then some 1 else none := by
  intro plain s
  have hm : s.replay.revertOverlay.2.Matches Eq plain.revertOverlay.2 :=
    ⟨rfl, rfl, rfl, rfl, rfl, rfl, rfl⟩
  have hpauses : s.replay.advance.pauses = plain.pauses.tail := by
    rw [Replay.pauses_advance, hm.pauses State.stable_eq]
  have hdepth : s.replay.advance.depth = plain.advance.depth := by
    unfold Replay.depth
    rw [(hm.advance State.stable_eq).state]
  refine ⟨plain.getElem?_pauses, ?_⟩
  rw [landings_eq, ← hpauses, ← hdepth]
  cases stopOnEntry with
  | false => exact ⟨rfl, rfl⟩
  | true =>
    have hp := pauses_stop { s with replay := s.replay.advance } .entry
    have hstack : (stop { s with replay := s.replay.advance } .entry).2.replay.depth =
        s.replay.advance.depth := congrArg List.length
      (pause_stop (s := { s with replay := s.replay.advance }) s.replay.saved_advance .entry).2
    refine ⟨?_, rfl⟩
    show itinerary breakpoints kinds
      (stop { s with replay := s.replay.advance } .entry).2.replay.pauses
      (stop { s with replay := s.replay.advance } .entry).2.replay.depth 1 = _
    rw [hp, hstack]
    rfl

end Session

end Retrace
