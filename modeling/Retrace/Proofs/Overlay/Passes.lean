import Retrace.Proofs.Overlay.Frames
import Retrace.Proofs.Overlay.Passes.Objects
import Retrace.Proofs.Overlay.Passes.Variables

/-!
# Passes of overlays

* `Overlay.refreshObjects_eq`, `Overlay.updateRoots_eq`, `Overlay.createTriggerGlobals_eq`: the
  passes as folds over what a snapshot lists.
* `Overlay.start`, `written`, `linked`, `updated`, `untold`: the overlay from pass to pass.
* **`State.touches_overlay`**: an overlay touches the state, whatever the snapshot.
-/

namespace Retrace

namespace Overlay

/-! ## From pass to pass -/

theorem refreshObjects_eq (o : Overlay) (snapshot : Snapshot) :
    o.refreshObjects snapshot = snapshot.objects.foldl (fun o x => o.refreshObject x.1 x.2) o := by
  simp only [refreshObjects, Snapshot.objects, List.foldl_flatMap, List.foldl_map]

theorem updateRoots_eq (o : Overlay) (snapshot : Snapshot) :
    o.updateRoots snapshot = snapshot.captured.foldl (fun o x => o.updateRoot x.1 x.2) o := by
  simp only [updateRoots, Snapshot.captured, List.foldl_flatMap, List.foldl_map]

theorem createTriggerGlobals_eq (o : Overlay) (snapshot : Snapshot) :
    o.createTriggerGlobals snapshot =
      snapshot.triggers.foldl (fun o x => o.createTriggerGlobal x.1 x.2.1 x.2.2) o := by
  simp only [createTriggerGlobals, Snapshot.triggers, funext isTriggerExtent_eq, List.foldl_flatMap,
    List.foldl_map]
  rfl

/-- An overlay before anything is written. -/
def start (s : State) (snapshot : Snapshot) : Overlay :=
  { state := s, strings := stringsOf snapshot }

/-- An overlay when the captured objects are written. -/
def written (s : State) (snapshot : Snapshot) : Overlay :=
  (start s snapshot).refreshObjects snapshot

/-- An overlay when addresses have become references. -/
def linked (s : State) (snapshot : Snapshot) : Overlay :=
  (written s snapshot).resolvePending

/-- An overlay when the variables are updated. -/
def updated (s : State) (snapshot : Snapshot) : Overlay :=
  (linked s snapshot).updateRoots snapshot

/-- An overlay when only texts are still to come. -/
def untold (s : State) (snapshot : Snapshot) (runningTrigger : Bool) : Overlay :=
  if runningTrigger then (updated s snapshot).createTriggerGlobals snapshot
  else updated s snapshot

/-! ## Texts -/

theorem touches_refreshDisplays (o : Overlay) : o.state.Touches o.refreshDisplays.state := by
  refine State.touches_foldl (fun s b => ?_) _ o.state
  unfold refreshDisplay State.mapStore
  dsimp only
  split
  · exact .refl s
  · exact .single (.relabel b {} fun _ => rfl)

theorem touches_namePairs (o : Overlay) : o.state.Touches o.namePairs.state := by
  refine State.touches_foldl (fun s b => ?_) _ o.state
  exact .single (.relabel b {} fun _ => rfl)

end Overlay

namespace State

/-- **An overlay touches the state**, whatever the snapshot. -/
theorem touches_overlay {s : State} (hs : s.Orderly) (snapshot : Snapshot)
    (runningTrigger : Bool) : s.Touches (s.overlay snapshot runningTrigger) := by
  have v : Overlay.Valid { state := s, strings := Overlay.stringsOf snapshot } :=
    ⟨hs, fun noted hn => absurd hn List.not_mem_nil⟩
  have hobjects := Overlay.leads_refreshObjects v snapshot
  have hpending := Overlay.leads_resolvePending hobjects.valid
  have hroots := hpending.trans (Overlay.leads_updateRoots hpending.valid snapshot)
  have finish : ∀ o : Overlay, o.state.Touches o.refreshDisplays.namePairs.state := fun o =>
    o.touches_refreshDisplays.trans (Overlay.touches_namePairs _)
  unfold overlay
  dsimp only
  split
  · have hglobals := hroots.trans (Overlay.leads_createTriggerGlobals hroots.valid snapshot)
    exact hobjects.touches.trans (hglobals.touches.trans (finish _))
  · exact hobjects.touches.trans (hroots.touches.trans (finish _))

end State

end Retrace
