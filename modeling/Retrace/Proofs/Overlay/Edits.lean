import Retrace.Proofs.Overlay.Passes
import Retrace.Proofs.State.WellFormed

/-!
# Overlays are edits

All touches of an overlay are made of the edits that assignments are made of, and of trigger
variables. So a state under an overlay is as well-formed as the state below.

* `State.Touch.edits`: touches are edits.
* **`State.edits_overlay`**: an overlay is a sequence of edits.
* `State.SameFrames.rootOf?`, `State.SameFrames.signature`: what it reads of the calls stays.
-/

namespace Retrace.State

variable {s s' : State} {b : BindingId} {g : Bool}

theorem edits_detach (hs : s.Sound) (hb : s.Inner b) : s.Edits g (s.mapStore (·.detach b)) := by
  have e : s.Edit g _ := .collection
  have hb' := e.inner hs hb
  have new : s.store.collections.size < (s.store.collections.push Table.empty).size := by
    rw [Array.size_push]
    exact Nat.lt_succ_self _
  exact (Edits.single e).trans (.single (.rewrite (fun _ => rfl) (fun _ => new)
    fun key h => absurd h (hb'.noEntry key)))

theorem edits_referenceEntry_modify (hs : s.Sound) (key : String) {f : Binding → Binding}
    (labels : Labels f) (reference : ∀ a, (f a).reference = some key) :
    s.Edits g ((s.referenceEntry key).2.mapStore (·.modify (s.referenceEntry key).1 f)) := by
  have e : s.Edit g (s.referenceEntry key).2 := .entry key
  have hs' := e.sound hs
  have he := (slot?_referenceEntry s key _).trans (if_pos rfl)
  refine (Edits.single e).trans (.single (.rewrite labels.handle (fun hb => ?_) fun k hk => ?_))
  · rw [labels.children]
    exact hs'.hasCollection hb
  · rw [reference, Slot.object.inj (hs'.unique hk he)]

/-- **Touches are edits.** -/
theorem Touch.edits (t : s.Touch s') (hs : s.Sound) : s.Edits true s' := by
  cases t with
  | relabel b labels reference =>
    exact .single (edit_relabel hs labels.handle reference labels.children)
  | number has => exact .single (.number has)
  | child has name => exact .single (.child has name)
  | leave inner labels =>
    have h := edits_detach (g := true) hs inner
    exact h.trans (.single (edit_inner (h.sound hs) (h.inner hs inner) labels.handle
      labels.children))
  | @link b entry key inner known f labels =>
    have e := edit_share (g := true) (b := b) hs (hs.has (x := .object key) known)
    exact (Edits.single e).trans (.single (edit_inner (e.sound hs) (e.inner hs inner)
      labels.handle labels.children))
  | object key labels reference => exact edits_referenceEntry_modify hs key labels reference
  | clear b => exact .single (.clear b)
  | create name type value => exact .single (.create name type value)
  | global has unplaced name => exact .single (.global rfl has unplaced name)

theorem Touches.sound (h : s.Touches s') (hs : s.Sound) : s'.Sound :=
  h.invariant (fun t hs => (t.edits hs).sound hs) hs

theorem Touches.sameFrames (h : s.Touches s') (hs : s.Sound) : s.SameFrames s' :=
  (h.invariant (I := fun s' => s'.Sound ∧ s.SameFrames s')
    (fun t h => ⟨(t.edits h.1).sound h.1, h.2.trans (t.edits h.1).sameFrames⟩) ⟨hs, .refl s⟩).2

/-- **An overlay is a sequence of edits**, whatever the snapshot. -/
theorem edits_overlay {s : State} (hs : s.Sound) (snapshot : Snapshot) (runningTrigger : Bool) :
    s.Edits true (s.overlay snapshot runningTrigger) :=
  (touches_overlay hs.orderly snapshot runningTrigger).invariant
    (fun t h => h.trans (t.edits (h.sound hs))) (.refl s)

theorem WellFormed.overlay {s : State} (h : s.WellFormed) (snapshot : Snapshot)
    (runningTrigger : Bool) : (s.overlay snapshot runningTrigger).WellFormed :=
  h.edits (edits_overlay h.sound snapshot runningTrigger)

end Retrace.State

namespace Retrace

/-! ## Calls -/

/-- The variables of a call without trigger variables. -/
def Activation.declared (a : Activation) : Activation := { a with globals := .empty }

namespace State.SameFrames

variable {s s' : State}

theorem symm (h : s.SameFrames s') : s'.SameFrames s where
  stack := h.stack.symm
  statics := h.statics.symm
  keys := h.keys.symm
  activation {id a} ha := by
    have hk : id ∈ s'.activations.keys := by
      rw [h.keys]
      refine Classical.byContradiction fun hn => ?_
      cases ((Handles.get?_eq_none_iff _ _).2 hn).symm.trans ha
    obtain ⟨a', ha'⟩ := Handles.exists_of_mem_keys hk
    obtain ⟨globals, hsame⟩ := h.activation ha'
    obtain rfl := Option.some.inj (hsame.symm.trans ha)
    exact ⟨a'.globals, ha'⟩

theorem declared (h : s.SameFrames s') (id : Nat) :
    (s'.activations.get? id).map Activation.declared =
      (s.activations.get? id).map Activation.declared := by
  cases ha' : s'.activations.get? id with
  | none =>
    have hn : s.activations.get? id = none := by
      rw [Handles.get?_eq_none_iff, ← h.keys, ← Handles.get?_eq_none_iff, ha']
    rw [hn]
  | some a =>
    obtain ⟨globals, ha⟩ := h.activation ha'
    rw [ha]
    rfl

theorem top? (h : s.SameFrames s') : s'.top? = s.top? := congrArg List.head? h.stack

theorem isSome_activation (h : s.SameFrames s') (id : Nat) :
    (s'.activations.get? id).isSome = (s.activations.get? id).isSome := by
  have hd := congrArg Option.isSome (h.declared id)
  rw [Option.isSome_map, Option.isSome_map] at hd
  exact hd

theorem topActivation? (h : s.SameFrames s') :
    s'.topActivation?.map Activation.declared = s.topActivation?.map Activation.declared := by
  unfold State.topActivation? State.top?
  rw [h.stack]
  cases s.stack.head? with
  | none => rfl
  | some frame => exact h.declared frame.id

theorem slot? (h : s.SameFrames s') {x : Slot} (hx : x.IsVariable) : s'.slot? x = s.slot? x := by
  cases x with
  | static i name =>
    unfold State.slot?
    rw [h.statics]
  | localVar frame name =>
    have hd := congrArg (fun a : Option Activation => a.bind (·.locals.get? name))
      (h.declared frame)
    simp only [Option.bind_map] at hd
    exact hd
  | field | globalVar | object => cases hx

theorem signature (h : s.SameFrames s') (p : String → Bool) :
    (s'.topActivation?.any fun activation => p activation.signature) =
      s.topActivation?.any fun activation => p activation.signature := by
  have hd := congrArg (fun a : Option Activation => a.any fun a => p a.signature)
    h.topActivation?
  simp only [Option.any_map] at hd
  exact hd

theorem rootOf? {o o' : Overlay} (h : o.state.SameFrames o'.state) (symbol : String) :
    o'.rootOf? symbol = o.rootOf? symbol := by
  have hd := congrArg (fun a : Option Activation => a.bind fun activation =>
    (activation.locals.get? symbol).or <|
      ((Text.ownerAndLeaf symbol).1.bind fun className =>
        (o.state.statics.staticsOf? className).bind (·.get? (Text.ownerAndLeaf symbol).2)).or
        ((o.state.statics.get activation.statics).get? symbol)) h.topActivation?
  simp only [Option.bind_map] at hd
  unfold Overlay.rootOf?
  rw [h.statics]
  exact hd

end State.SameFrames

end Retrace
