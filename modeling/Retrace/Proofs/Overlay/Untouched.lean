import Retrace.Proofs.Overlay.Slots
import Retrace.Proofs.Replay.Identities

/-!
# What overlays leave untouched

An overlay writes into the collections of objects, into the bindings in them, into the bindings that
stand for objects, and into the variables that the snapshot names from the current call. Nothing of
this is another variable, whatever the snapshot: children, objects and variables are in different
places, and a binding is in one place only.

* `State.Untouched`: what stays.
* `State.HoldsVariable`, `Overlay.SparesVariables`: the bindings of variables, and steps that leave
  all of them alone.
* `Overlay.sparesVariables_refreshObject`, `Overlay.sparesVariables_written`: so do the captured
  objects.
* `State.get_overlay_of_not_root`: a variable that is not named keeps its record.
* **`Replay.untouched_performAll`**: all this in replays.
-/

namespace Retrace

/-! ## What stays -/

namespace State

variable {s s' s'' : State} {g : Bool} {b : BindingId}

/-- **What an overlay leaves as it is**: everything but the objects, the variables that the snapshot
names, and the trigger variables of the current call. -/
structure Untouched (s : State) (snapshot : Snapshot) (s' : State) : Prop where
  stack : s'.stack = s.stack
  /-- The classes, and the static variables of each scope. -/
  statics : s'.statics = s.statics
  keys : s'.activations.keys = s.activations.keys
  /-- A call keeps everything but its trigger variables. -/
  activation : ∀ {id a}, s.activations.get? id = some a →
    ∃ globals, s'.activations.get? id = some { a with globals }
  /-- A call below the current one keeps these as well. -/
  below : ∀ {id}, (∀ frame, s.top? = some frame → id ≠ frame.id) →
    s'.activations.get? id = s.activations.get? id
  /-- New objects are appended. -/
  references : s.references.entries <+: s'.references.entries
  object : ∀ {key b}, s.references.get? key = some b → s'.references.get? key = some b
  target : ∀ {h t}, s.handles.get? h = some t → s'.handles.get? h = some t
  /-- A variable that is not named keeps its record. -/
  record : ∀ {x b}, x.IsVariable → s.slot? x = some b →
    (∀ y ∈ snapshot.captured, s.root? y.2 ≠ some b) → s'.store.get b = s.store.get b

theorem Edit.activations_of_ne (e : s.Edit g s') {id : Nat}
    (below : ∀ frame, s.top? = some frame → id ≠ frame.id) :
    s'.activations.get? id = s.activations.get? id := by
  cases e with
  | number =>
    unfold ensureHandle
    split <;> rfl
  | entry =>
    unfold referenceEntry
    split <;> rfl
  | global =>
    unfold insertGlobal modifyTop
    split
    · rfl
    · next frame htop =>
      simp only [Handles.get?_update, if_neg (below frame htop), Option.map_id']
  | _ => rfl

theorem Edits.activations_of_ne (h : s.Edits g s') {id : Nat}
    (below : ∀ frame, s.top? = some frame → id ≠ frame.id) :
    s'.activations.get? id = s.activations.get? id := by
  refine (h.invariant (I := fun s' => s'.top? = s.top? ∧
    s'.activations.get? id = s.activations.get? id) (fun e hi => ?_) ⟨rfl, rfl⟩).2
  refine ⟨e.sameFrames.top?.trans hi.1, (e.activations_of_ne fun frame hframe => ?_).trans hi.2⟩
  exact below frame (hi.1 ▸ hframe)

theorem Edits.references_prefix (h : s.Edits g s') :
    s.references.entries <+: s'.references.entries :=
  h.invariant (I := fun s' => s.references.entries <+: s'.references.entries)
    (fun e hi => hi.trans e.references_prefix) (List.prefix_refl _)

theorem Edits.target_of_some (h : s.Edits g s') {handle : Nat} {t : Target}
    (ht : s.handles.get? handle = some t) : s'.handles.get? handle = some t :=
  h.invariant (I := fun s' => s'.handles.get? handle = some t) (fun e => e.target_of_some) ht

/-! ## Variables -/

/-- The binding is that of a local or static variable, of any call or class. -/
def HoldsVariable (s : State) (b : BindingId) : Prop :=
  ∃ x : Slot, x.IsVariable ∧ s.slot? x = some b

end State

namespace Overlay

variable {s : State} {o o' o'' : Overlay} {b : BindingId} {snapshot : Snapshot}

theorem Above.not_holdsVariable (a : Above s o) {x : Slot} (hx : o.state.slot? x = some b)
    (hvar : ¬ x.IsVariable) : ¬ s.HoldsVariable b := by
  rintro ⟨y, hy, hb⟩
  have hb' : o.state.slot? y = some b := ((a.touches.sameFrames a.base).slot? hy).trans hb
  exact hvar (a.sound.unique hx hb' ▸ hy)

/-- The step leaves the variables of the state `s` alone. -/
def SparesVariables (s : State) (o o' : Overlay) : Prop :=
  o.Spares o' (fun b => ¬ s.HoldsVariable b) (fun _ => True)

namespace SparesVariables

theorem of_spares {B : BindingId → Prop} {C : CollectionId → Prop} (h : o.Spares o' B C)
    (other : ∀ b, o.state.store.Has b → B b → ¬ s.HoldsVariable b) : SparesVariables s o o' :=
  h.mono other fun _ _ _ => trivial

theorem trans (h : SparesVariables s o o') (h' : SparesVariables s o' o'') :
    SparesVariables s o o'' :=
  Spares.trans h h' (fun _ _ => id) fun _ _ => id

theorem foldl {α : Type} {f : Overlay → α → Overlay} {l : List α} (a : Above s o)
    (leads : ∀ {o'} c, c ∈ l → o.Leads o' → o'.Leads (f o' c))
    (step : ∀ {o'} c, c ∈ l → o.Leads o' → Above s o' → SparesVariables s o' (f o' c)) :
    SparesVariables s o (l.foldl f o) := by
  have h := spares_foldl (B := fun _ b => ¬ s.HoldsVariable b) a.valid leads fun c hc h =>
    step c hc h (a.leads h)
  exact h.mono (fun b _ ⟨_, _, hb⟩ => hb) fun _ _ => id

end SparesVariables

/-! ## Objects -/

theorem sparesVariables_openObject (a : Above s o) (extent : Extent) (c : Capture) :
    SparesVariables s o (o.openObject extent c) :=
  .of_spares (o.spares_openObject extent c) fun _ _ hb =>
    a.not_holdsVariable (x := .object c.address) hb id

theorem sparesVariables_writeItem (a : Above s o) (hb : o.state.store.Has b) (item : Item) :
    SparesVariables s o (o.writeItem b item) :=
  .of_spares (spares_writeItem a hb item) fun _ _ hx => a.not_holdsVariable hx id

theorem sparesVariables_openPair (a : Above s o) (hb : o.state.store.Has b) (index : Nat) :
    SparesVariables s o (o.openPair b index).2 := by
  obtain ⟨hchild, placed⟩ := leads_childOrCreate a.valid hb (Slot.pairName index)
  have made : SparesVariables s o (o.childOrCreate b (Slot.pairName index)).2 :=
    .of_spares (spares_childOrCreate hb _) fun _ _ => False.elim
  have listed := spares_enlist (hchild.valid.orderly.has placed)
  refine made.trans (.of_spares listed fun x _ hx => ?_)
  exact (a.leads hchild).not_holdsVariable (hx ▸ placed) id

theorem sparesVariables_writePair (a : Above s o) (hb : o.state.store.Has b) (extent : Extent)
    (index : Nat) (entry : Entry) :
    SparesVariables s o (o.writePair b extent.keyType extent.itemType index entry) := by
  obtain ⟨hpair, hp⟩ := leads_openPair a.valid hb index
  have a' := a.leads hpair
  have hkey := leads_writeItem a'.valid hp (extent.noPair_keyItem entry)
  have opened := sparesVariables_openPair a hb index
  have key := sparesVariables_writeItem a' hp (extent.keyItem entry)
  have value := sparesVariables_writeItem (a'.leads hkey) (hkey.has hp) (extent.valueItem entry)
  rw [writePair_eq]
  exact opened.trans (key.trans value)

theorem sparesVariables_writeContent (a : Above s o) (hb : o.state.store.Has b) (extent : Extent)
    (content : Content) : SparesVariables s o (o.writeContent b extent content) := by
  cases h : extent.mapEntries? content with
  | some entries =>
    rw [writeContent_of_map h]
    refine .foldl a (fun e _ h => ?_) fun e _ h a' => ?_
    · exact leads_writePair h.valid (h.has hb) extent e.2 e.1
    · exact sparesVariables_writePair a' (h.has hb) extent e.2 e.1
  | none =>
    rw [writeContent_of_items h]
    refine .foldl a (fun item hitem h => ?_) fun item _ h a' => ?_
    · exact leads_writeItem h.valid (h.has hb) (extent.noPair_items content item hitem)
    · exact sparesVariables_writeItem a' (h.has hb) item

/-- **An object is no variable**, and neither are its children. -/
theorem sparesVariables_refreshObject (a : Above s o) (extent : Extent) (c : Capture) :
    SparesVariables s o (o.refreshObject extent c) := by
  have opened := sparesVariables_openObject a extent c
  rw [refreshObject_eq]
  exact opened.trans (sparesVariables_writeContent (a.move (.object extent c))
    (has_openObject a.valid extent c) extent c.content)

/-- **No captured object is written into a variable**, whatever the snapshot. -/
theorem sparesVariables_written (hs : s.Sound) (snapshot : Snapshot) :
    SparesVariables s (start s snapshot) (written s snapshot) := by
  rw [written, refreshObjects_eq]
  refine .foldl (Above.start hs snapshot) (fun x _ h => ?_) fun x _ _ a => ?_
  · exact leads_refreshObject h.valid x.1 x.2
  · exact sparesVariables_refreshObject a x.1 x.2

/-! ## Variables that are not named -/

/-- A variable waits for nothing, is listed nowhere, and is no object to be written anew. -/
theorem not_noted_written (hs : s.Sound) (snapshot : Snapshot) (hb : s.HoldsVariable b) :
    b ∉ (written s snapshot).targets ∧ b ∉ (written s snapshot).pairs ∧
      (written s snapshot).waits b = [] := by
  obtain ⟨x, hx, hslot⟩ := hb
  have has := hs.has hslot
  have spares := sparesVariables_written hs snapshot
  have hB : ¬ ¬ s.HoldsVariable b := not_not_intro ⟨x, hx, hslot⟩
  refine ⟨fun h => ?_, fun h => ?_, spares.waits has hB⟩
  · -- only the known objects are to be written anew before anything is written
    obtain ⟨key, hkey⟩ := Table.mem_values_iff.1 ((spares.shown has hB).1 h)
    exact hx.ne_object key (hs.unique hslot hkey)
  · exact List.not_mem_nil ((spares.listed has hB).1 h)

end Overlay

namespace State

variable {s : State} {b : BindingId} {snapshot : Snapshot}

/-- **A variable that is not named keeps its record**: name, type, text, reference, children and
handle. -/
theorem get_overlay_of_not_root (hs : s.Sound) (hb : s.HoldsVariable b)
    (unnamed : ∀ y ∈ snapshot.captured, s.root? y.2 ≠ some b) (runningTrigger : Bool) :
    (s.overlay snapshot runningTrigger).store.get b = s.store.get b := by
  obtain ⟨shown, listed, waits⟩ := Overlay.not_noted_written hs snapshot hb
  have behind := Overlay.spares_behind snapshot runningTrigger hs
  have written := Overlay.sparesVariables_written hs snapshot
  have hB : ¬ ¬ s.HoldsVariable b := not_not_intro hb
  obtain ⟨x, -, hslot⟩ := hb
  have has := written.touches.has (hs.has hslot)
  have other : ¬ ((∃ noted ∈ (Overlay.written s snapshot).pending, b = noted.1) ∨
      ∃ y ∈ snapshot.captured, s.root? y.2 = some b) := by
    rintro (⟨noted, hn, rfl⟩ | ⟨y, hy, hroot⟩)
    · have hmem := Overlay.mem_waits hn
      rw [waits] at hmem
      cases hmem
    · exact unnamed y hy hroot
  have hpair : b ∉ (Overlay.untold s snapshot runningTrigger).pairs :=
    mt (behind.listed has other).1 listed
  have htarget : b ∉ (Overlay.untold s snapshot runningTrigger).targets :=
    mt (behind.shown has other).1 shown
  have paired := Overlay.paired_untold hs snapshot runningTrigger
  calc (s.overlay snapshot runningTrigger).store.get b
      = (Overlay.untold s snapshot runningTrigger).state.store.get b := by
        refine ((Overlay.get_texts paired).2.2 b).trans ?_
        rw [if_neg hpair, if_neg fun h => htarget h.1]
    _ = (Overlay.written s snapshot).state.store.get b := behind.get has other
    _ = s.store.get b := written.get (hs.has hslot) hB

/-- **An overlay touches nothing else**, whatever the snapshot. -/
theorem WellFormed.untouched (h : s.WellFormed) (snapshot : Snapshot) (runningTrigger : Bool) :
    s.Untouched snapshot (s.overlay snapshot runningTrigger) := by
  have edits := edits_overlay h.sound snapshot runningTrigger
  have frames := edits.sameFrames
  exact {
    stack := frames.stack
    statics := frames.statics
    keys := frames.keys
    activation := frames.symm.activation
    below := edits.activations_of_ne
    references := edits.references_prefix
    object := Table.get?_of_append edits.references_prefix
    target := edits.target_of_some
    record := fun hx hslot unnamed =>
      get_overlay_of_not_root h.sound ⟨_, hx, hslot⟩ unnamed runningTrigger }

end State

namespace Replay

/-- **An overlay touches nothing else.** In any run, write any snapshot into the live state or into
the state that is shown. The call stack, the classes and their static variables stay, and so do the
calls, but for the trigger variables of the current one; known objects keep the bindings that stand
for them, and new ones are appended; handles expand to what they did; and a local or static
variable, of any call or class, keeps its whole record unless the first symbol of a captured value
names it from the current call. -/
theorem untouched_performAll (config : Config) (resolver : Resolver) (lines : List String)
    (ops : List Operation) (snapshot : Snapshot) (runningTrigger : Bool) :
    let r := (fresh config resolver lines).performAll ops
    ∀ s ∈ [r.live, r.state], s.Untouched snapshot (s.overlay snapshot runningTrigger) := by
  intro r s hs
  have h : r.WellFormed := (wellFormed_fresh config resolver lines).run ops
  simp only [List.mem_cons, List.not_mem_nil, or_false] at hs
  rcases hs with rfl | rfl
  · exact h.live.untouched snapshot runningTrigger
  · exact h.state.untouched snapshot runningTrigger

/-- A call and its caller have variables of one name. -/
def nestedLog : List String :=
  ["62.0 APEX_CODE,FINEST",
    "0|METHOD_ENTRY|[1]|01p|A.f()",
    "0|VARIABLE_SCOPE_BEGIN|[1]|a|Integer|false|false",
    "0|VARIABLE_ASSIGNMENT|[1]|a|1",
    "0|METHOD_ENTRY|[2]|01p|A.g()",
    "0|VARIABLE_SCOPE_BEGIN|[5]|a|Integer|false|false",
    "0|VARIABLE_ASSIGNMENT|[5]|a|2",
    "0|STATEMENT_EXECUTE|[6]"]

/-- A captured value of that name. -/
def namedSnapshot : Snapshot where
  extents :=
    [{ typeName := "Integer"
       captures :=
        [{ address := "0x1"
           symbols := some ["a"]
           content := { value := .number "7" } }] }]

set_option maxRecDepth 100000 in
/-- The overlay writes the variable of the current call; the one of the caller keeps its record. -/
theorem untouched_nestedLog :
    let s := ((fresh {} (fun _ => none) nestedLog).performAll [.advance, .advance]).live
    let t := s.overlay namedSnapshot false
    s.slot? (.localVar 1001 "a") = some ⟨0⟩ ∧ s.slot? (.localVar 1002 "a") = some ⟨1⟩ ∧
      (t.store.get ⟨1⟩).value = "7" ∧ (s.store.get ⟨0⟩).value = "1" ∧
      t.store.get ⟨0⟩ = s.store.get ⟨0⟩ := by
  intro s t
  obtain ⟨hcaller, hcurrent, hvalue, hvalue'⟩ : s.slot? (.localVar 1001 "a") = some ⟨0⟩ ∧
      s.slot? (.localVar 1002 "a") = some ⟨1⟩ ∧ (t.store.get ⟨1⟩).value = "7" ∧
      (s.store.get ⟨0⟩).value = "1" := by decide +kernel
  have unnamed : ∀ y ∈ namedSnapshot.captured, s.root? y.2 ≠ some ⟨0⟩ := by decide +kernel
  have untouched := untouched_performAll {} (fun _ => none) nestedLog [.advance, .advance]
    namedSnapshot false s List.mem_cons_self
  exact ⟨hcaller, hcurrent, hvalue, hvalue',
    untouched.record (x := .localVar 1001 "a") trivial hcaller unnamed⟩

end Replay

end Retrace
