import Retrace.Proofs.Replay.Matching
import Retrace.Replay.Checkpoints

/-!
# Overlays leave no trace

An overlay is shown above the state that the log has rebuilt, and taken off before anything else is
read. So the user may look at snapshots and scopes between advances as he likes: the replay goes on
as if he had not. Only the handles of scopes, given while no overlay is shown, use up numbers.

* `Replay.revertOverlay_applyOverlay`, `Replay.applyOverlay_twice`: overlays are taken off as they
  were put on.
* `Operation`, `Replay.performAll`: runs of advances and looks.
* `Replay.matches_performAll`: a look changes nothing that an advance reads.
* **`Replay.transparent`**: a run shows the live state of the run of its advances.
-/

namespace Retrace

/-- What a user does with a replay. -/
inductive Operation
  | advance
  | applyOverlay
  | applyOverlayAtTop
  | revertOverlay
  | scan
  | setSnapshot (id : String) (snapshot : Snapshot)
  | forgetMarker
  | scopes (frame : Nat)
  | views (handle : Nat)

def Operation.isAdvance : Operation → Bool
  | advance => true
  | _ => false

namespace Replay

/-- The replay behind an operation. Variables are only read. -/
def perform (r : Replay) : Operation → Replay
  | .advance => r.advance
  | .applyOverlay => r.applyOverlay.2
  | .applyOverlayAtTop => r.applyOverlayAtTop.2
  | .revertOverlay => r.revertOverlay.2
  | .scan => r.scan.2
  | .setSnapshot id snapshot => (r.setSnapshot id snapshot).2
  | .forgetMarker => r.forgetMarker
  | .scopes frame => (r.scopes frame).2
  | .views _ => r

/-- The replay behind a run of operations. -/
def performAll (r : Replay) : List Operation → Replay
  | [] => r
  | op :: ops => (r.perform op).performAll ops

theorem performAll_append (r : Replay) (ops ops' : List Operation) :
    r.performAll (ops ++ ops') = (r.performAll ops).performAll ops' := by
  induction ops generalizing r with
  | nil => rfl
  | cons op ops ih => exact ih (r.perform op)

/-- Every operation of the run is made at a replay that allows it. -/
def Along (allows : Replay → Operation → Prop) : Replay → List Operation → Prop
  | _, [] => True
  | r, op :: ops => allows r op ∧ (r.perform op).Along allows ops

/-- Scopes are asked for only while an overlay is shown. -/
def ScopesUnderOverlay (r : Replay) (ops : List Operation) : Prop :=
  r.Along (fun r op => ∀ frame, op = .scopes frame → r.hasOverlay) ops

/-! ## Putting overlays on and taking them off -/

theorem revertOverlay_snd (r : Replay) :
    r.revertOverlay.2 = { r with state := r.live, saved := none } := by
  unfold revertOverlay live
  split
  · next h => simp [h]
  · next h =>
    cases r
    simp_all

@[simp] theorem revertOverlay_twice (r : Replay) :
    r.revertOverlay.2.revertOverlay = (false, r.revertOverlay.2) := by
  rw [revertOverlay_snd]
  rfl

/-- **An overlay is taken off as it was put on**: the replay below is the one without overlay. -/
theorem revertOverlay_applyOverlay (r : Replay) :
    r.applyOverlay.2.revertOverlay = (r.applyOverlay.1, r.revertOverlay.2) := by
  unfold applyOverlay
  dsimp only
  split
  · exact r.revertOverlay_twice
  · rw [revertOverlay_snd]
    rfl

theorem applyOverlay_of_false {r : Replay} (h : r.applyOverlay.1 = false) :
    r.applyOverlay.2 = r.revertOverlay.2 := by
  unfold applyOverlay at h ⊢
  dsimp only at h ⊢
  split at h
  · rfl
  · cases h

theorem applyOverlay_congr {r q : Replay} (h : r.revertOverlay.2 = q.revertOverlay.2) :
    r.applyOverlay = q.applyOverlay := by
  unfold applyOverlay
  rw [h]

theorem applyOverlay_twice (r : Replay) : r.applyOverlay.2.applyOverlay = r.applyOverlay :=
  applyOverlay_congr (by rw [revertOverlay_applyOverlay])

theorem revertOverlay_applyOverlayAtTop (r : Replay) :
    r.applyOverlayAtTop.2.revertOverlay.2 = r.revertOverlay.2 := by
  unfold applyOverlayAtTop
  split
  · rw [revertOverlay_applyOverlay]
  · rfl

/-! ## Looks -/

section Looks

variable {ρ : State → State → Prop} {r q : Replay}

theorem Matches.refl (r : Replay) : r.Matches Eq r := ⟨rfl, rfl, rfl, rfl, rfl, rfl, rfl⟩

theorem Matches.revertOverlay (h : r.Matches Eq q) (hs : r.saved = q.saved) :
    r.revertOverlay.2.Matches Eq q.revertOverlay.2 := by
  rw [revertOverlay_snd, revertOverlay_snd]
  refine ⟨h.config, h.resolver, h.lines, h.position, h.current, h.script, ?_⟩
  show r.live = q.live
  unfold live
  rw [hs, h.state]

theorem matches_scanStep (r : Replay) (line : String) (index : Nat) :
    (r.scanStep line index).Matches Eq r ∧ (r.scanStep line index).saved = r.saved := by
  unfold scanStep
  split
  · exact ⟨.refl r, rfl⟩
  · exact ⟨⟨rfl, rfl, rfl, rfl, rfl, rfl, rfl⟩, rfl⟩
  · exact ⟨⟨rfl, rfl, rfl, rfl, rfl, rfl, rfl⟩, rfl⟩

theorem matches_scan (r : Replay) : r.scan.2.Matches Eq r ∧ r.scan.2.saved = r.saved := by
  have key : ∀ (ls : List (String × Nat)) (q : Replay),
      (ls.foldl (fun q e => q.scanStep e.1 e.2) q).Matches Eq q ∧
        (ls.foldl (fun q e => q.scanStep e.1 e.2) q).saved = q.saved := by
    intro ls
    induction ls with
    | nil => exact fun q => ⟨.refl q, rfl⟩
    | cons e ls ih =>
      intro q
      have hstep := matches_scanStep q e.1 e.2
      have hrest := ih (q.scanStep e.1 e.2)
      exact ⟨hrest.1.trans Eq.trans hstep.1, hrest.2.trans hstep.2⟩
  have h := key r.lines.zipIdx { r with checkpoints := [] }
  exact ⟨h.1.trans Eq.trans ⟨rfl, rfl, rfl, rfl, rfl, rfl, rfl⟩, h.2⟩

theorem scopes_snd (r : Replay) (frame : Nat) :
    ∃ handles : Handles Target, (r.scopes frame).2 = r.mapState (fun s => { s with handles }) ∧
      ({ r.state with handles } : State).Alike r.state := by
  unfold scopes
  split
  · exact ⟨r.state.handles, rfl, .refl _⟩
  · refine ⟨((r.state.handles.create (.scope frame .locals)).create
      (.scope frame .statics)).create (.scope frame .globals), rfl, .refl _, rfl, rfl, rfl, rfl, ?_⟩
    simp [State.expandables, Handles.create]

theorem matches_scopes (hrefl : ∀ s : State, ρ s s) (r : Replay) (frame : Nat)
    (hρ : r.hasOverlay ∨ ∀ s t : State, s.Alike t → ρ s t) :
    (r.scopes frame).2.revertOverlay.2.Matches ρ r.revertOverlay.2 := by
  obtain ⟨handles, hsnd, halike⟩ := r.scopes_snd frame
  rw [hsnd, revertOverlay_snd, revertOverlay_snd]
  refine ⟨rfl, rfl, rfl, rfl, rfl, rfl, ?_⟩
  show ρ (r.saved.getD { r.state with handles }) (r.saved.getD r.state)
  cases hs : r.saved with
  | some s => exact hrefl s
  | none =>
    refine hρ.elim (fun h => ?_) fun h => h _ _ halike
    simp [hasOverlay, hs] at h

/-- **A look changes nothing that an advance reads**, but for handles of scopes. -/
theorem matches_perform (hrefl : ∀ s : State, ρ s s) (r : Replay) {op : Operation}
    (hop : op.isAdvance = false)
    (hρ : (∀ frame, op = .scopes frame → r.hasOverlay) ∨ ∀ s t : State, s.Alike t → ρ s t) :
    (r.perform op).revertOverlay.2.Matches ρ r.revertOverlay.2 := by
  have ofEq : ∀ {r q : Replay}, r.Matches Eq q → r.Matches ρ q := fun h =>
    ⟨h.config, h.resolver, h.lines, h.position, h.current, h.script, h.state ▸ hrefl _⟩
  cases op with
  | advance => cases hop
  | applyOverlay =>
    simp only [perform, revertOverlay_applyOverlay]
    exact ofEq (.refl _)
  | applyOverlayAtTop =>
    simp only [perform, revertOverlay_applyOverlayAtTop]
    exact ofEq (.refl _)
  | revertOverlay =>
    simp only [perform, revertOverlay_twice]
    exact ofEq (.refl _)
  | scan => exact ofEq ((matches_scan r).1.revertOverlay (matches_scan r).2)
  | setSnapshot id snapshot =>
    exact ofEq (Matches.revertOverlay ⟨rfl, rfl, rfl, rfl, rfl, rfl, rfl⟩ rfl)
  | forgetMarker => exact ofEq (Matches.revertOverlay ⟨rfl, rfl, rfl, rfl, rfl, rfl, rfl⟩ rfl)
  | scopes frame => exact matches_scopes hrefl r frame (hρ.imp_left fun h => h frame rfl)
  | views handle => exact ofEq (.refl _)

/-- **A run matches the run of its advances.** -/
theorem matches_performAll (hρ : State.Stable ρ) (hrefl : ∀ s : State, ρ s s)
    (htrans : ∀ {s t u : State}, ρ s t → ρ t u → ρ s u) (ops : List Operation)
    (hops : r.ScopesUnderOverlay ops ∨ ∀ s t : State, s.Alike t → ρ s t)
    (h : r.revertOverlay.2.Matches ρ q.revertOverlay.2) :
    (r.performAll ops).revertOverlay.2.Matches ρ
      (q.performAll (ops.filter (·.isAdvance))).revertOverlay.2 := by
  induction ops generalizing r q with
  | nil => exact h
  | cons op ops ih =>
    have hops' : (r.perform op).ScopesUnderOverlay ops ∨ ∀ s t : State, s.Alike t → ρ s t :=
      hops.imp_left fun h => h.2
    cases hop : op.isAdvance with
    | true =>
      rw [List.filter_cons_of_pos hop]
      cases op with
      | advance =>
        refine ih hops' ?_
        -- behind an advance there is no overlay
        simp only [perform, revertOverlay_advance]
        exact h.advance hρ
      | _ => cases hop
    | false =>
      rw [List.filter_cons_of_neg (by simp [hop])]
      exact ih hops' ((matches_perform hrefl r hop (hops.imp_left fun h => h.1)).trans htrans h)

end Looks

/-- **Transparency.** A run of advances, overlays, searches, snapshots and looks, from any replay,
ends at the place of the run of its advances, with the live state of that run up to the numbers of
handles; with the very state when scopes are asked for under overlays only. An overlay that is put
on is taken off again without a trace, one that cannot be put on leaves none, and putting it on
again changes nothing. -/
theorem transparent (r : Replay) (ops : List Operation) :
    ((r.performAll ops).position = (r.performAll (ops.filter (·.isAdvance))).position ∧
      (r.performAll ops).current = (r.performAll (ops.filter (·.isAdvance))).current ∧
      (r.performAll ops).script = (r.performAll (ops.filter (·.isAdvance))).script ∧
      (r.performAll ops).live.Alike (r.performAll (ops.filter (·.isAdvance))).live ∧
      (r.ScopesUnderOverlay ops →
        (r.performAll ops).live = (r.performAll (ops.filter (·.isAdvance))).live)) ∧
    (r.applyOverlay.1 = true →
      r.applyOverlay.2.revertOverlay = (true, { r with state := r.live, saved := none })) ∧
    (r.applyOverlay.1 = false → r.applyOverlay.2 = { r with state := r.live, saved := none }) ∧
    r.applyOverlay.2.applyOverlay = r.applyOverlay := by
  have halike := matches_performAll State.stable_alike State.Alike.refl State.Alike.trans
    (r := r) (q := r) ops (.inr fun _ _ h => h)
    ⟨rfl, rfl, rfl, rfl, rfl, rfl, .refl _⟩
  simp only [revertOverlay_snd] at halike
  refine ⟨⟨halike.position, halike.current, halike.script, halike.state, fun hs => ?_⟩,
    fun h => ?_, fun h => ?_, r.applyOverlay_twice⟩
  · have heq := matches_performAll State.stable_eq Eq.refl Eq.trans (r := r) (q := r) ops (.inl hs)
      (.refl _)
    simp only [revertOverlay_snd] at heq
    exact heq.state
  · rw [revertOverlay_applyOverlay, h, revertOverlay_snd]
  · rw [applyOverlay_of_false h, revertOverlay_snd]

/-- A snapshot is captured at the first of two statements, behind the value of a variable. -/
def snapshotLog : List String :=
  ["62.0 APEX_CODE,FINEST",
    "0|METHOD_ENTRY|[1]|1|A.f()",
    "0|VARIABLE_SCOPE_BEGIN|[1]|x|Integer|false|false",
    "0|VARIABLE_ASSIGNMENT|[1]|x|5",
    "0|HEAP_DUMP|[2]|s|A||2",
    "0|STATEMENT_EXECUTE|[2]",
    "0|STATEMENT_EXECUTE|[3]"]

/-- The variable has another value in the snapshot. -/
def otherSnapshot : Snapshot where
  extents :=
    [{ typeName := "Integer"
       captures :=
        [{ address := "0x1"
           symbols := some ["x"]
           content := { value := .number "7" } }] }]

set_option maxRecDepth 100000 in
/-- At the first statement the overlay shows the value of the snapshot. Taking it off gives back the
value of the log, and looking at scopes under it leaves no trace. At the beginning there is no
overlay to put on. -/
theorem transparent_snapshotLog :
    let r := (fresh {} (fun _ => none) snapshotLog).performAll
      [.scan, .setSnapshot "s" otherSnapshot, .advance, .advance]
    let q := fresh {} (fun _ => none) snapshotLog
    let value := fun s : State =>
      (s.topActivation?.bind (·.locals.get? "x")).map fun b => (s.store.get b).value
    (value r.state = some "5" ∧ value r.applyOverlay.2.state = some "7") ∧
    (r.applyOverlay.1 = true ∧
      r.applyOverlay.2.revertOverlay = (true, { r with state := r.live, saved := none })) ∧
    (r.ScopesUnderOverlay [.applyOverlay, .scopes 1001, .advance] ∧
      (r.performAll [.applyOverlay, .scopes 1001, .advance]).live =
        (r.performAll [.advance]).live) ∧
    (q.applyOverlay.1 = false ∧ q.applyOverlay.2 = { q with state := q.live, saved := none }) := by
  intro r q value
  have hvalue : value r.state = some "5" ∧ value r.applyOverlay.2.state = some "7" := by
    decide +kernel
  obtain ⟨hr, ho⟩ : r.applyOverlay.1 = true ∧ r.applyOverlay.2.hasOverlay = true := by
    decide +kernel
  have hs : r.ScopesUnderOverlay [.applyOverlay, .scopes 1001, .advance] := by
    refine ⟨fun frame h => ?_, fun frame h => ho, fun frame h => ?_, trivial⟩
    · cases h
    · cases h
  have hq : q.applyOverlay.1 = false := by decide +kernel
  exact ⟨hvalue, ⟨hr, (transparent r []).2.1 hr⟩,
    ⟨hs, (transparent r [.applyOverlay, .scopes 1001, .advance]).1.2.2.2.2 hs⟩,
    ⟨hq, (transparent q []).2.2.1 hq⟩⟩

end Replay

end Retrace
