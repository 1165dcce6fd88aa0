import Retrace.Proofs.Overlay.Moves

/-!
# The passes over variables

The variables that symbols name get the captured values, and trigger variables are made.

* `Overlay.slot?_of_rootOf`: symbols name variables that a log declares.
* **`Overlay.leads_updateRoots`**, **`Overlay.leads_createTriggerGlobals`**: the passes are moves.
-/

namespace Retrace

namespace Overlay

variable {o : Overlay} {b : BindingId}

/-! ## Variables -/

theorem slot?_of_rootOf {symbol : String} (h : o.rootOf? symbol = some b) :
    ∃ x, x.IsVariable ∧ o.state.slot? x = some b := by
  simp only [rootOf?, State.topActivation?, Option.bind_eq_some_iff, Option.or_eq_some_iff] at h
  obtain ⟨activation, ⟨frame, -, ha⟩, h⟩ := h
  rcases h with hl | ⟨-, ⟨className, -, statics, hc, hs⟩ | ⟨-, hs⟩⟩
  · refine ⟨.localVar frame.id symbol, trivial, ?_⟩
    simp [State.slot?, ha, hl]
  · simp only [Statics.staticsOf?, Option.map_eq_some_iff] at hc
    obtain ⟨i, -, rfl⟩ := hc
    exact ⟨.static i _, trivial, hs⟩
  · exact ⟨.static activation.statics symbol, trivial, hs⟩

theorem inner_of_rootOf (v : o.Valid) {symbol : String} (h : o.rootOf? symbol = some b) :
    o.state.Inner b := by
  obtain ⟨x, hvar, hx⟩ := slot?_of_rootOf h
  exact v.orderly.inner hx hvar.ne_object

theorem leads_writeRoot (v : o.Valid) (hb : o.state.Inner b) (extent : Extent) (c : Capture) :
    o.Leads (o.writeRoot b extent c) := by
  unfold writeRoot
  split
  · exact leads_setScalar v hb _
  · split
    · next entry he =>
      split
      · exact leads_setScalar v hb _
      · exact leads_link v hb he
    · exact leads_setScalar v hb _

theorem leads_updateRoot (v : o.Valid) (extent : Extent) (c : Capture) :
    o.Leads (o.updateRoot extent c) := by
  unfold updateRoot
  split
  · exact .refl v
  · next b hb =>
    obtain ⟨symbol, -, hroot⟩ := Option.bind_eq_some_iff.1 hb
    obtain ⟨x, hvar, hx⟩ := slot?_of_rootOf hroot
    have h : o.Leads (o.mapStore (·.setType b extent.typeName)) :=
      .single v (.type hx (.inr hvar.not_mayHoldPair))
    exact h.trans (leads_writeRoot h.valid (h.inner (inner_of_rootOf v hroot)) extent c)

theorem leads_updateRoots (v : o.Valid) (snapshot : Snapshot) :
    o.Leads (o.updateRoots snapshot) := by
  refine .foldl v fun extent _ h => ?_
  exact .foldl h.valid fun c _ h' => leads_updateRoot h'.valid extent c

/-! ## Trigger variables -/

theorem slot?_setScalar (o : Overlay) (child : BindingId) (text : String) (x : Slot) :
    (o.setScalar child text).state.slot? x = o.state.slot? x := by
  unfold setScalar mapStore mapState State.mapStore
  dsimp only
  split
  · have h := o.state.slot?_collection x
    cases x <;> exact h
  · cases x <;> rfl

theorem slot?_link (o : Overlay) (child entry : BindingId) (address : String) (x : Slot) :
    (o.link child entry address).state.slot? x = o.state.slot? x := by
  refine ((State.samePlaces_ensureHandle _ child).slots x).trans ?_
  cases x <;> rfl

theorem slot?_writeRoot (o : Overlay) (b : BindingId) (extent : Extent) (c : Capture) (x : Slot) :
    (o.writeRoot b extent c).state.slot? x = o.state.slot? x := by
  unfold writeRoot
  split
  · exact slot?_setScalar ..
  · split
    · split
      · exact slot?_setScalar ..
      · exact slot?_link ..
    · exact slot?_setScalar ..

/-- **A trigger variable is in no other place.** -/
theorem leads_createTriggerGlobal (v : o.Valid) (extent : Extent) (c : Capture)
    (symbol : String) : o.Leads (o.createTriggerGlobal extent c symbol) := by
  let b := (o.state.store.create symbol extent.typeName "").1
  let made : Overlay := o.mapState fun state =>
    { state with store := (o.state.store.create symbol extent.typeName "").2 }
  have hmade : o.Leads made := .single v (.create symbol extent.typeName "")
  have unplaced : ∀ x, made.state.slot? x ≠ some b := by
    intro x h
    have hx : o.state.slot? x = some b := (o.state.slot?_create _ _ _ x).symm.trans h
    exact o.state.store.not_has_create _ _ _ (v.orderly.has hx)
  have hb : made.state.store.Has b := (Store.has_create ..).2 (.inr rfl)
  have hwritten := leads_writeRoot hmade.valid ⟨hb, fun key => unplaced (.object key)⟩ extent c
  have hglobal : (made.writeRoot b extent c).Move
      ((made.writeRoot b extent c).mapState (·.insertGlobal symbol b)) := by
    refine .global (hwritten.has hb) (fun x => ?_) symbol
    rw [slot?_writeRoot]
    exact unplaced x
  exact hmade.trans (hwritten.trans (.single hwritten.valid hglobal))

theorem leads_createTriggerGlobals (v : o.Valid) (snapshot : Snapshot) :
    o.Leads (o.createTriggerGlobals snapshot) := by
  refine .foldl v fun extent _ h => ?_
  refine .foldl h.valid fun c _ h' => ?_
  exact .foldl h'.valid fun symbol _ h'' => leads_createTriggerGlobal h''.valid extent c symbol

end Overlay

end Retrace
