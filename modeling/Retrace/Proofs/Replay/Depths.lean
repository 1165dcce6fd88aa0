import Retrace.Proofs.Replay.Calls
import Retrace.Proofs.Replay.FrameTable

/-!
# Depths of calls

The number of active calls says little about which calls these are. Between two places of a log a
call may have ended and another one begun at the same depth. What is at some depth is still the same
call as long as no line in between leaves fewer calls active.

* `State.frameIds`: the numbers of the active frames, the outermost first.
* `State.Shifts`, `Replay.shifts_handle`: what an event does to them.
* `State.Descends`: a frame that was numbered before is where it was.
* **`Course.getElem?_of_deep`**, **`Course.deep_of_getElem?`**: the frame at a depth is the same at
  both ends of a course exactly when the depth is never left.
-/

namespace Retrace

namespace State

variable {s s' s'' : State}

/-! ## Frames by depth -/

/-- The numbers of the active frames, the outermost first. -/
def frameIds (s : State) : List Nat := s.stack.reverse.map Frame.id

@[simp] theorem length_frameIds (s : State) : s.frameIds.length = s.stack.length := by
  simp [frameIds]

/-- What a line does to the frames: one is pushed with a new number, the current one goes, or they
stay. -/
inductive Shifts (s s' : State) : Prop
  | stay (ids : s'.frameIds = s.frameIds) (next : s'.activations.next = s.activations.next)
  | push (ids : s'.frameIds = s.frameIds ++ [s.activations.next])
      (next : s'.activations.next = s.activations.next + 1)
  | pop (ids : s'.frameIds = s.frameIds.dropLast)
      (next : s'.activations.next = s.activations.next)

theorem shifts_pushFrame (statics : Statics) (signature className : String) (scope : ScopeId)
    (source : Locator) (line : Nat) :
    s.Shifts (({ s with statics } : State).pushFrame signature className scope source line) :=
  .push (by simp [frameIds, pushFrame]) rfl

theorem frameIds_popFrame (s : State) : s.popFrame.frameIds = s.frameIds.dropLast := by
  cases hs : s.stack with
  | nil => simp [frameIds, popFrame, hs]
  | cons top below => simp [frameIds, popFrame, hs]

theorem shifts_popFrame (s : State) : s.Shifts s.popFrame :=
  .pop s.frameIds_popFrame s.next_popFrame

theorem shifts_setLine (s : State) (line : Nat) : s.Shifts (s.setLine line) := by
  refine .stay ?_ (s.next_setLine line)
  cases hs : s.stack with
  | nil => simp [frameIds, setLine, hs]
  | cons top below => simp [frameIds, setLine, hs]

theorem shifts_of_eq (stack : s'.stack = s.stack)
    (next : s'.activations.next = s.activations.next) : s.Shifts s' :=
  .stay (by rw [frameIds, frameIds, stack]) next

theorem Shifts.getElem? (h : s.Shifts s') {i : Nat} (hi : i < s.stack.length)
    (hi' : i < s'.stack.length) : s'.frameIds[i]? = s.frameIds[i]? := by
  rw [← length_frameIds] at hi hi'
  cases h with
  | stay ids => rw [ids]
  | push ids => rw [ids, List.getElem?_append_left hi]
  | pop ids =>
    rw [ids, List.length_dropLast] at hi'
    rw [ids, List.getElem?_dropLast, if_pos hi']

/-- **Frames that were numbered before are where they were**; others have later numbers. -/
structure Descends (s s' : State) : Prop where
  next : s.activations.next ≤ s'.activations.next
  old : ∀ {i id : Nat}, s'.frameIds[i]? = some id → id < s.activations.next →
    s.frameIds[i]? = some id

theorem Descends.refl (s : State) : s.Descends s := ⟨Nat.le_refl _, fun h _ => h⟩

theorem Descends.trans (h : s.Descends s') (h' : s'.Descends s'') : s.Descends s'' where
  next := Nat.le_trans h.next h'.next
  old hid hlt := h.old (h'.old hid (Nat.lt_of_lt_of_le hlt h.next)) hlt

theorem Shifts.descends (h : s.Shifts s') : s.Descends s' := by
  cases h with
  | stay ids next => exact ⟨Nat.le_of_eq next.symm, fun hid _ => ids ▸ hid⟩
  | push ids next =>
    refine ⟨by omega, fun {i id} hid hlt => ?_⟩
    rw [ids, List.getElem?_append] at hid
    split at hid
    · exact hid
    · -- the new frame has the next number
      have hnew := List.mem_of_getElem? hid
      rw [List.mem_singleton] at hnew
      omega
  | pop ids next =>
    refine ⟨Nat.le_of_eq next.symm, fun {i id} hid _ => ?_⟩
    rw [ids, List.getElem?_dropLast] at hid
    split at hid
    · exact hid
    · cases hid

end State

namespace Replay

/-- **Events shift frames.** -/
theorem shifts_handle {r : Replay} (e : Event) (h : r.state.Sound) :
    r.state.Shifts (r.handle e).state := by
  cases e with
  | logStart => exact State.shifts_pushFrame ..
  | call signature => exact State.shifts_pushFrame ..
  | finish signature =>
    simp only [handle, handleFinish]
    split
    · exact State.shifts_of_eq rfl rfl
    · split
      · exact r.state.shifts_popFrame
      · exact State.shifts_of_eq rfl rfl
  | statement line => exact r.state.shifts_setLine _
  | debug line text => exact State.shifts_of_eq rfl rfl
  | declaration d =>
    exact State.shifts_of_eq (stack_declare r.state d) (r.state.declares_declare d).activations.1
  | assignment a =>
    have he := State.edits_assign (g := false) h a
    refine State.shifts_of_eq he.sameFrames.stack ?_
    show (r.state.assign a).activations.next = _
    rw [he.activations]
  | other => exact State.shifts_of_eq rfl rfl

theorem descends_idle {e : Option Event} {s s' : State} (h : s.Idle e s') : s.Descends s' := by
  cases h with
  | scope => exact ⟨Nat.le_refl _, fun h _ => h⟩
  | pop => exact s.shifts_popFrame.descends

theorem frameIds_idles {e : Option Event} {s s' : State} (h : s.Idles e s') :
    s'.frameIds <+: s.frameIds := by
  induction h with
  | refl => exact List.prefix_refl _
  | tail _ idle ih =>
    cases idle with
    | scope => exact ih
    | pop =>
      rw [State.frameIds_popFrame]
      exact (List.dropLast_prefix _).trans ih

theorem getElem?_idles {e : Option Event} {s s' : State} (h : s.Idles e s') {i : Nat}
    (hi : i < s'.stack.length) :
    i < s.stack.length ∧ s'.frameIds[i]? = s.frameIds[i]? := by
  obtain ⟨inner, heq⟩ := frameIds_idles h
  have hlen := congrArg List.length heq
  rw [List.length_append, State.length_frameIds, State.length_frameIds] at hlen
  refine ⟨by omega, ?_⟩
  rw [← heq, List.getElem?_append_left (by rwa [State.length_frameIds])]

end Replay

/-! ## Frames along a course -/

namespace Course

variable {e e' : Option Event} {s s' : State} {ts : List Turn} {i id : Nat}

theorem descends (c : Course e s ts e' s') (sound : s.Sound) : s.Descends s' :=
  (c.grows State.Descends.refl State.Descends.trans
    (fun e h => (Replay.shifts_handle e h).descends) Replay.descends_idle sound).1

/-- **At a depth that is never left the frame stays the same.** -/
theorem getElem?_of_deep (c : Course e s ts e' s') (sound : s.Sound) (hi : i < s'.stack.length)
    (deep : ∀ t ∈ ts, i < t.before.stack.length) :
    i < s.stack.length ∧ s'.frameIds[i]? = s.frameIds[i]? := by
  induction c with
  | nil h => exact Replay.getElem?_idles h hi
  | cons h handled _ ih =>
    have hbefore := State.sound_idles h sound
    have hshifts := handled.rel hbefore Replay.shifts_handle
    rw [List.forall_mem_cons] at deep
    obtain ⟨hlt, hrest⟩ := ih (handled.sound hbefore) hi deep.2
    obtain ⟨hlt', hidle⟩ := Replay.getElem?_idles h deep.1
    exact ⟨hlt', hrest.trans ((hshifts.getElem? deep.1 hlt).trans hidle)⟩

/-- **A frame that was numbered before has never been left**: calls were active at its depth before
every line. -/
theorem deep_of_getElem? (c : Course e s ts e' s') (sound : s.Sound)
    (hid : s'.frameIds[i]? = some id) (old : id < s.activations.next) :
    ∀ t ∈ ts, i < t.before.stack.length := by
  induction c with
  | nil => exact fun _ ht => absurd ht List.not_mem_nil
  | @cons _ _ _ _ t _ h handled rest ih =>
    have hbefore := State.sound_idles h sound
    have hafter := handled.sound hbefore
    have hturn := (handled.rel hbefore Replay.shifts_handle).descends
    have hold := Nat.lt_of_lt_of_le old ((Course.nil h).descends sound).next
    rw [List.forall_mem_cons]
    refine ⟨?_, ih hafter hid (Nat.lt_of_lt_of_le hold hturn.next)⟩
    -- so the frame was there before the first line too
    have hthere := (hturn.trans (rest.descends hafter)).old hid hold
    rw [← State.length_frameIds]
    exact (List.getElem?_eq_some_iff.1 hthere).1

end Course

end Retrace
