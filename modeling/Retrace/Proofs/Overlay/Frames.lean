import Retrace.Overlay

/-!
# Overlays keep the call stack

* `Overlay.calls_writeContent`, `Overlay.calls_refreshObject`, …: no pass of an overlay changes the
  calls but that for trigger variables.
* **`State.stack_overlay`**: so a state under an overlay has the call stack of the state below.
-/

namespace Retrace

theorem foldl_keeps {α β γ : Type} (p : β → γ) {f : β → α → β} (h : ∀ b a, p (f b a) = p b)
    (l : List α) (b : β) : p (l.foldl f b) = p b := by
  induction l generalizing b with
  | nil => rfl
  | cons a l ih => rw [List.foldl_cons, ih, h]

namespace State

/-- The call stack and the variables of the calls. -/
def calls (s : State) : List Frame × Handles Activation := (s.stack, s.activations)

theorem calls_ensureHandle (s : State) (b : BindingId) : (s.ensureHandle b).calls = s.calls := by
  unfold ensureHandle
  split <;> rfl

theorem stack_modifyTop (s : State) (f : Activation → Activation) :
    (s.modifyTop f).stack = s.stack := by
  unfold modifyTop
  split <;> rfl

end State

namespace Overlay

/-! ## Single bindings -/

theorem calls_mapStore (o : Overlay) (f : Store → Store) :
    (o.mapStore f).state.calls = o.state.calls := rfl

theorem calls_ensureHandle (o : Overlay) (b : BindingId) :
    (o.mapState (·.ensureHandle b)).state.calls = o.state.calls :=
  State.calls_ensureHandle _ b

theorem calls_childOrCreate (o : Overlay) (b : BindingId) (name : String) :
    (o.childOrCreate b name).2.state.calls = o.state.calls := rfl

theorem calls_link (o : Overlay) (child entry : BindingId) (address : String) :
    (o.link child entry address).state.calls = o.state.calls :=
  State.calls_ensureHandle _ child

theorem calls_assignSlot (o : Overlay) (child : BindingId) (v : Json) :
    (o.assignSlot child v).state.calls = o.state.calls := by
  unfold assignSlot
  split
  · rfl
  · split <;> rfl

/-! ## Objects -/

theorem calls_writeFields (o : Overlay) (b : BindingId) (fields : List Entry) :
    (o.writeFields b fields).state.calls = o.state.calls := by
  refine foldl_keeps (fun o : Overlay => o.state.calls) (fun o field => ?_) fields o
  dsimp only
  rw [calls_assignSlot, calls_childOrCreate]

theorem calls_writePair (o : Overlay) (b : BindingId) (keyType valueType : String) (index : Nat)
    (entry : Entry) : (o.writePair b keyType valueType index entry).state.calls = o.state.calls := by
  simp only [writePair, calls_assignSlot, calls_mapStore, calls_childOrCreate, calls_ensureHandle]

theorem calls_writePairs (o : Overlay) (b : BindingId) (keyType valueType : String)
    (entries : List Entry) :
    (o.writePairs b keyType valueType entries).state.calls = o.state.calls := by
  refine foldl_keeps (fun o : Overlay => o.state.calls) (fun o e => ?_) _ o
  dsimp only
  rw [calls_writePair]

theorem calls_writeElements (o : Overlay) (b : BindingId) (elementType : String)
    (elements : List Json) : (o.writeElements b elementType elements).state.calls = o.state.calls := by
  refine foldl_keeps (fun o : Overlay => o.state.calls) (fun o e => ?_) _ o
  dsimp only
  rw [calls_assignSlot, calls_mapStore, calls_childOrCreate]

theorem calls_writeContent (o : Overlay) (b : BindingId) (extent : Extent) (content : Content) :
    (o.writeContent b extent content).state.calls = o.state.calls := by
  unfold writeContent
  dsimp only
  split
  · split
    · exact calls_writePairs _ _ _ _ _
    · exact calls_writeElements _ _ _ _
  · exact calls_writeFields _ _ _

theorem calls_objectAt (o : Overlay) (address : String) :
    (o.objectAt address).2.state.calls = o.state.calls := by
  unfold objectAt
  split <;> rfl

theorem calls_refreshObject (o : Overlay) (extent : Extent) (c : Capture) :
    (o.refreshObject extent c).state.calls = o.state.calls := by
  unfold refreshObject
  dsimp only
  rw [calls_writeContent]
  exact calls_objectAt o c.address

theorem calls_refreshObjects (o : Overlay) (snapshot : Snapshot) :
    (o.refreshObjects snapshot).state.calls = o.state.calls := by
  refine foldl_keeps (fun o : Overlay => o.state.calls) (fun o extent => ?_) _ o
  exact foldl_keeps (fun o : Overlay => o.state.calls) (fun o c => calls_refreshObject o extent c) _ o

theorem calls_resolvePending (o : Overlay) : o.resolvePending.state.calls = o.state.calls := by
  refine foldl_keeps (fun o : Overlay => o.state.calls) (fun o noted => ?_) o.pending
    { o with pending := [] }
  dsimp only
  split
  · exact calls_link _ _ _ _
  · rfl

/-! ## Variables -/

theorem calls_writeRoot (o : Overlay) (b : BindingId) (extent : Extent) (c : Capture) :
    (o.writeRoot b extent c).state.calls = o.state.calls := by
  unfold writeRoot
  split
  · rfl
  · split
    · split
      · rfl
      · exact calls_link _ _ _ _
    · rfl

theorem calls_updateRoot (o : Overlay) (extent : Extent) (c : Capture) :
    (o.updateRoot extent c).state.calls = o.state.calls := by
  unfold updateRoot
  split
  · rfl
  · exact calls_writeRoot _ _ _ _

theorem calls_updateRoots (o : Overlay) (snapshot : Snapshot) :
    (o.updateRoots snapshot).state.calls = o.state.calls := by
  refine foldl_keeps (fun o : Overlay => o.state.calls) (fun o extent => ?_) _ o
  exact foldl_keeps (fun o : Overlay => o.state.calls) (fun o c => calls_updateRoot o extent c) _ o

theorem stack_createTriggerGlobal (o : Overlay) (extent : Extent) (c : Capture) (symbol : String) :
    (o.createTriggerGlobal extent c symbol).state.stack = o.state.stack := by
  unfold createTriggerGlobal
  show (State.modifyTop _ _).stack = _
  rw [State.stack_modifyTop]
  exact congrArg Prod.fst (calls_writeRoot ..)

theorem stack_createTriggerGlobals (o : Overlay) (snapshot : Snapshot) :
    (o.createTriggerGlobals snapshot).state.stack = o.state.stack := by
  refine foldl_keeps (fun o : Overlay => o.state.stack) (fun o extent => ?_) _ o
  refine foldl_keeps (fun o : Overlay => o.state.stack) (fun o c => ?_) _ o
  exact foldl_keeps (fun o : Overlay => o.state.stack)
    (fun o symbol => stack_createTriggerGlobal o extent c symbol) _ o

end Overlay

/-- **An overlay keeps the call stack.** -/
theorem State.stack_overlay (s : State) (snapshot : Snapshot) (runningTrigger : Bool) :
    (s.overlay snapshot runningTrigger).stack = s.stack := by
  have h : ∀ o : Overlay, o.refreshDisplays.namePairs.state.stack = o.state.stack := fun _ => rfl
  unfold State.overlay
  dsimp only
  rw [h]
  have same : (({ state := s, strings := Overlay.stringsOf snapshot } : Overlay).refreshObjects
      snapshot |>.resolvePending.updateRoots snapshot).state.calls = s.calls := by
    rw [Overlay.calls_updateRoots, Overlay.calls_resolvePending, Overlay.calls_refreshObjects]
  split
  · rw [Overlay.stack_createTriggerGlobals]
    exact congrArg Prod.fst same
  · exact congrArg Prod.fst same

end Retrace
