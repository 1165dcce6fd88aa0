import Retrace.Proofs.Overlay.Texts
import Retrace.Proofs.Replay.Runs

/-!
# Texts of objects are up to date

Texts are written once, at the end of an overlay, for the bindings that the overlay made refer to
objects and for all known objects. This is enough: whatever else an overlay writes either refers to
nothing then, or is among these bindings. An address that was only noted and a key left over from
before both last until the noted addresses are looked up, and no longer.

* `Overlay.Quiet`, `Overlay.Settles`: bindings whose text will be right in the end, and those that
  still wait for that.
* `Overlay.quiet_resolvePending`: what waited is settled.
* `Written`, `State.writes`: the children and variables that an overlay writes.
* **`State.displays_overlay`**: in the end all of them that refer to objects hold their texts.
-/

namespace Retrace

/-- A binding that refers to an object holds the text of the object. -/
def Store.Displays (s : Store) (b : BindingId) : Prop :=
  s.IsObject b → (s.get b).value = s.display b

namespace Overlay

variable {o o' : Overlay} {b p : BindingId}

/-! ## Moves -/

namespace Move

theorem touched (m : o.Move o') (hb : b ∈ o.touched) : b ∈ o'.touched := by
  cases m with
  | link => exact List.mem_append_left _ hb
  | object extent c =>
    rw [touched_openObject]
    exact List.mem_append_left _ hb
  | _ => exact hb

theorem pending (m : o.Move o') {noted : BindingId × String} (h : noted ∈ o.pending) :
    noted ∈ o'.pending := by
  cases m with
  | note => exact List.mem_append_left _ h
  | object extent c => rwa [pending_openObject]
  | _ => exact h

/-- **A binding that refers to something** did so before, or its text is to be written anew. -/
theorem refers (m : o.Move o') (h : (o'.state.store.get b).reference ≠ none) :
    (o.state.store.get b).reference ≠ none ∨ b ∈ o'.touched := by
  have same : o'.state.store.get b = o.state.store.get b →
      (o.state.store.get b).reference ≠ none ∨ b ∈ o'.touched := fun hget => .inl (hget ▸ h)
  have created : ∀ name type value, ((o.state.store.create name type value).2.get b).reference ≠
      none → (o.state.store.get b).reference ≠ none := by
    intro name type value h
    by_cases hb : b = (o.state.store.create name type value).1
    · rw [hb, Store.get_create_self] at h
      exact absurd rfl h
    · rwa [Store.get_create_of_ne _ _ _ _ hb] at h
  cases m with
  | @type x c _ type =>
    exact .inl (Store.get_modify_field (fun binding => { binding with typeName := type })
      Binding.reference (fun _ => rfl) b ▸ h)
  | @number c _ => exact .inl (State.get_ensureHandle _ c Binding.reference (fun _ _ => rfl) b ▸ h)
  | @child parent _ name =>
    rcases o.state.childOrCreate_cases parent name with ⟨hsame, -⟩ | ⟨-, hnew⟩
    · exact same (congrArg (fun s : State => s.store.get b) hsame)
    · refine .inl (created name "" "" ?_)
      have : (o.childOrCreate parent name).2.state = _ := hnew
      rwa [this] at h
  | @scalar c inner text =>
    by_cases hb : b = c
    · subst hb
      rw [get_setScalar_self inner.has] at h
      exact absurd rfl h
    · exact same (get_setScalar_of_ne hb text)
  | @note c _ address =>
    exact .inl (Store.get_modify_field (fun binding => { binding with value := address })
      Binding.reference (fun _ => rfl) b ▸ h)
  | @link c entry address inner known =>
    by_cases hb : b = c
    · exact .inr (hb ▸ List.mem_append_right _ (List.mem_singleton_self _))
    · exact same (get_link_of_ne hb entry address)
  | object extent c =>
    by_cases hb : b = (o.objectAt c.address).1
    · refine .inr ?_
      rw [touched_openObject, hb]
      exact List.mem_append_right _ (List.mem_singleton_self _)
    · exact same (o.get_openObject_of_ne extent c hb)
  | pair => exact same rfl
  | create name type value => exact .inl (created name type value h)
  | @global c _ _ name =>
    exact same (congrArg (fun s : Store => s.get b) (o.state.store_insertGlobal name c))

end Move

/-! ## Bindings that are settled -/

/-- The text of the binding is written anew in the end, if the binding refers to anything. -/
def Quiet (o : Overlay) (b : BindingId) : Prop :=
  (o.state.store.get b).reference ≠ none → b ∈ o.touched

/-- What the binding refers to is settled, or it waits for that. -/
def Settles (o : Overlay) (b : BindingId) : Prop :=
  o.Quiet b ∨ b ∈ o.pending.map Prod.fst

theorem Move.quiet (m : o.Move o') (h : o.Quiet b) : o'.Quiet b := fun hr =>
  (m.refers hr).elim (fun hold => m.touched (h hold)) id

theorem Move.settles (m : o.Move o') (h : o.Settles b) : o'.Settles b := by
  refine h.imp m.quiet fun hb => ?_
  obtain ⟨noted, hnoted, rfl⟩ := List.mem_map.1 hb
  exact List.mem_map_of_mem (m.pending hnoted)

theorem quiet_setScalar (hb : o.state.store.Has b) (text : String) :
    (o.setScalar b text).Quiet b := fun hr => by
  rw [get_setScalar_self hb] at hr
  exact absurd rfl hr

theorem quiet_link (o : Overlay) (b entry : BindingId) (address : String) :
    (o.link b entry address).Quiet b := fun _ =>
  List.mem_append_right _ (List.mem_singleton_self b)

theorem settles_assignSlot (hb : o.state.store.Has b) (value : Json) :
    (o.assignSlot b value).Settles b := by
  unfold assignSlot
  split
  · exact .inl (quiet_setScalar hb _)
  · split
    · exact .inl (quiet_setScalar hb _)
    · exact .inr (List.mem_map.2 ⟨_, List.mem_append_right _ (List.mem_singleton_self _), rfl⟩)

theorem settles_writeItem (v : o.Valid) (hb : o.state.store.Has b) (item : Item) :
    (o.writeItem b item).Settles (o.childOrCreate b item.name).1 := by
  obtain ⟨hc, hslot⟩ := leads_childOrCreate v hb item.name
  have has := hc.valid.orderly.has hslot
  unfold writeItem
  cases item.typeName with
  | none => exact settles_assignSlot has item.value
  | some type =>
    have typed : ((o.childOrCreate b item.name).2.mapStore
        (·.setType (o.childOrCreate b item.name).1 type)).state.store.Has
          (o.childOrCreate b item.name).1 := (Store.has_modify ..).2 has
    exact settles_assignSlot typed item.value

/-- **Nothing that waited is left unsettled.** -/
theorem quiet_resolvePending (v : o.Valid) (h : o.Settles b) : o.resolvePending.Quiet b := by
  have kept : ∀ {o o' : Overlay}, o.Valid → o.Move o' → o.Quiet b → o'.Quiet b :=
    fun _ m => m.quiet
  rcases h with h | h
  · exact (leads_resolvePending v).keeps kept v.forget h
  · obtain ⟨noted, hnoted, rfl⟩ := List.mem_map.1 h
    obtain ⟨before, behind, hsplit⟩ := List.append_of_mem hnoted
    obtain ⟨hbefore, hnow, hbehind⟩ := Leads.foldl_split v.forget
      (fun x hx h => leads_resolve h.valid (h.inner (v.pending x hx))) hsplit
    refine hbehind.keeps kept hnow.valid ?_
    unfold resolve
    split
    · exact quiet_link _ _ _ _
    · exact quiet_setScalar (hbefore.inner (v.pending noted hnoted)).has _

/-! ## What passes tell -/

/-- What the steps of a pass tell, each of the overlay that it finds. -/
def along {α β : Type} (f : Overlay → α → Overlay) (g : Overlay → α → List β) :
    Overlay → List α → List β
  | _, [] => []
  | o, a :: l => g o a ++ along f g (f o a) l

section Along

variable {α β : Type} {f : Overlay → α → Overlay} {g : Overlay → α → List β} {l : List α}

theorem mem_along {w : β} : w ∈ along f g o l ↔
    ∃ before a behind, l = before ++ a :: behind ∧ w ∈ g (before.foldl f o) a := by
  induction l generalizing o with
  | nil => simp [along]
  | cons a l ih =>
    rw [along, List.mem_append, ih]
    constructor
    · rintro (hw | ⟨before, c, behind, rfl, hw⟩)
      · exact ⟨[], a, l, rfl, hw⟩
      · exact ⟨a :: before, c, behind, rfl, hw⟩
    · rintro ⟨before, c, behind, hl, hw⟩
      cases before with
      | nil =>
        cases hl
        exact .inl hw
      | cons d before =>
        cases hl
        exact .inr ⟨before, c, behind, rfl, hw⟩

/-- What holds of each step's telling behind it, and stays, holds behind the pass. -/
theorem holds_along {I : Overlay → β → Prop} (v : o.Valid)
    (keeps : ∀ {o o' w}, o.Valid → o.Move o' → I o w → I o' w)
    (step : ∀ {o'} a, a ∈ l → o.Leads o' → o'.Leads (f o' a))
    (tells : ∀ {o'} a, a ∈ l → o.Leads o' → ∀ w ∈ g o' a, I (f o' a) w) :
    ∀ w ∈ along f g o l, I (l.foldl f o) w := by
  intro w hw
  obtain ⟨before, a, behind, hl, hw⟩ := mem_along.1 hw
  obtain ⟨hbefore, hnow, hbehind⟩ := Leads.foldl_split v step hl
  refine hbehind.keeps (fun v m => keeps v m) hnow.valid (tells a ?_ hbefore w hw)
  rw [hl]
  exact List.mem_append_right _ List.mem_cons_self

end Along

end Overlay

/-! ## What an overlay writes -/

/-- What an overlay writes. -/
inductive Written
  /-- A field, an element, or the key or the value in a child of a map. -/
  | slot (b : BindingId)
  /-- A child of a map. -/
  | pair (b : BindingId)
  /-- A variable. -/
  | root (b : BindingId)
  deriving DecidableEq

/-- The child of a map that is written. -/
def Written.pair? : Written → Option BindingId
  | pair p => some p
  | slot _ | root _ => none

namespace Overlay

variable {o o' : Overlay} {b p : BindingId}

/-- The child of a name is written. -/
def itemWrites (o : Overlay) (b : BindingId) (item : Item) : List Written :=
  [.slot (o.childOrCreate b item.name).1]

/-- A child of a map is written, with its key and its value. -/
def pairWrites (o : Overlay) (b : BindingId) (extent : Extent) (index : Nat) (entry : Entry) :
    List Written :=
  let (pair, o) := o.openPair b index
  .pair pair :: (o.itemWrites pair (extent.keyItem entry) ++
    (o.writeItem pair (extent.keyItem entry)).itemWrites pair (extent.valueItem entry))

/-- What is written of the captured children of an object. -/
def contentWrites (o : Overlay) (b : BindingId) (extent : Extent) (content : Content) :
    List Written :=
  match extent.mapEntries? content with
  | some entries =>
    along (fun o e => o.writePair b extent.keyType extent.itemType e.2 e.1)
      (fun o e => o.pairWrites b extent e.2 e.1) o entries.zipIdx
  | none => along (·.writeItem b) (·.itemWrites b) o (extent.items content)

/-- What is written of a captured object. -/
def objectWrites (o : Overlay) (extent : Extent) (c : Capture) : List Written :=
  (o.openObject extent c).contentWrites (o.objectAt c.address).1 extent c.content

/-- The variable that the first symbol names is written, if there is one. -/
def rootWrites (o : Overlay) (c : Capture) : List Written :=
  ((c.firstSymbol?.bind o.rootOf?).map .root).toList

/-- A trigger variable is made. -/
def triggerWrites (o : Overlay) (extent : Extent) (symbol : String) : List Written :=
  [.root (o.state.store.create symbol extent.typeName "").1]

/-- What is written is settled or waits for that. Children of maps get other texts. -/
def Notes (o : Overlay) : Written → Prop
  | .slot b | .root b => o.Settles b
  | .pair _ => True

/-- What is written is settled. -/
def Calm (o : Overlay) : Written → Prop
  | .slot b | .root b => o.Quiet b
  | .pair _ => True

theorem Move.notes (m : o.Move o') {w : Written} (h : o.Notes w) : o'.Notes w := by
  cases w with
  | slot | root => exact m.settles h
  | pair => trivial

theorem Move.calm (m : o.Move o') {w : Written} (h : o.Calm w) : o'.Calm w := by
  cases w with
  | slot | root => exact m.quiet h
  | pair => trivial

theorem notes_writeItem (v : o.Valid) (hb : o.state.store.Has b) (item : Item) :
    ∀ w ∈ o.itemWrites b item, (o.writeItem b item).Notes w := by
  intro w hw
  rw [itemWrites, List.mem_singleton] at hw
  subst hw
  exact settles_writeItem v hb item

theorem notes_writePair (v : o.Valid) (hb : o.state.store.Has b) (extent : Extent) (index : Nat)
    (entry : Entry) : ∀ w ∈ o.pairWrites b extent index entry,
      (o.writePair b extent.keyType extent.itemType index entry).Notes w := by
  obtain ⟨hpair, hp⟩ := leads_openPair v hb index
  have hkey := leads_writeItem hpair.valid hp (extent.noPair_keyItem entry)
  have hvalue := leads_writeItem hkey.valid (hkey.has hp) (extent.noPair_valueItem entry)
  intro w hw
  rw [writePair_eq]
  rw [pairWrites, List.mem_cons, List.mem_append] at hw
  rcases hw with rfl | hw | hw
  · trivial
  · exact hvalue.keeps (fun _ m => m.notes) hkey.valid (notes_writeItem hpair.valid hp _ w hw)
  · exact notes_writeItem hkey.valid (hkey.has hp) _ w hw

theorem notes_writeContent (v : o.Valid) (hb : o.state.store.Has b) (extent : Extent)
    (content : Content) :
    ∀ w ∈ o.contentWrites b extent content, (o.writeContent b extent content).Notes w := by
  unfold contentWrites
  cases h : extent.mapEntries? content with
  | some entries =>
    rw [writeContent_of_map h]
    dsimp only
    refine holds_along v (fun _ m => m.notes) (fun e _ h => ?_) fun e _ h => ?_
    · exact leads_writePair h.valid (h.has hb) extent e.2 e.1
    · exact notes_writePair h.valid (h.has hb) extent e.2 e.1
  | none =>
    rw [writeContent_of_items h]
    dsimp only
    refine holds_along v (fun _ m => m.notes) (fun item hitem h => ?_) fun item _ h => ?_
    · exact leads_writeItem h.valid (h.has hb) (extent.noPair_items content item hitem)
    · exact notes_writeItem h.valid (h.has hb) item

theorem notes_refreshObject (v : o.Valid) (extent : Extent) (c : Capture) :
    ∀ w ∈ o.objectWrites extent c, (o.refreshObject extent c).Notes w := by
  have opened : o.Leads (o.openObject extent c) := .single v (.object extent c)
  rw [refreshObject_eq]
  exact notes_writeContent opened.valid (has_openObject v extent c) extent c.content

theorem quiet_writeRoot (hb : o.state.store.Has b) (extent : Extent) (c : Capture) :
    (o.writeRoot b extent c).Quiet b := by
  unfold writeRoot
  split
  · exact quiet_setScalar hb _
  · split
    · split
      · exact quiet_setScalar hb _
      · exact quiet_link _ _ _ _
    · exact quiet_setScalar hb _

theorem calm_updateRoot (v : o.Valid) (extent : Extent) (c : Capture) :
    ∀ w ∈ o.rootWrites c, (o.updateRoot extent c).Calm w := by
  intro w hw
  rw [rootWrites, Option.mem_toList, Option.map_eq_some_iff] at hw
  obtain ⟨b, hb, rfl⟩ := hw
  obtain ⟨symbol, -, hroot⟩ := Option.bind_eq_some_iff.1 hb
  have has := (inner_of_rootOf v hroot).has
  unfold updateRoot
  rw [show c.firstSymbol?.bind o.rootOf? = some b from hb]
  exact quiet_writeRoot ((Store.has_modify ..).2 has) extent c

theorem calm_createTriggerGlobal (o : Overlay) (extent : Extent) (c : Capture)
    (symbol : String) :
    ∀ w ∈ o.triggerWrites extent symbol, (o.createTriggerGlobal extent c symbol).Calm w := by
  intro w hw
  rw [triggerWrites, List.mem_singleton] at hw
  subst hw
  let made : Overlay := o.mapState fun state =>
    { state with store := (o.state.store.create symbol extent.typeName "").2 }
  have hb : made.state.store.Has (o.state.store.create symbol extent.typeName "").1 :=
    (Store.has_create ..).2 (.inr rfl)
  have hquiet := quiet_writeRoot hb extent c
  intro hr
  refine hquiet fun hnone => hr ?_
  rw [← hnone]
  exact congrArg (fun s : Store => (s.get _).reference) (State.store_insertGlobal _ symbol _)

end Overlay

/-- **What an overlay writes**, one after the other: the children of captured objects, the variables
that the snapshot names, and the trigger variables. -/
def State.writes (s : State) (snapshot : Snapshot) (runningTrigger : Bool) : List Written :=
  Overlay.along (fun o x => o.refreshObject x.1 x.2) (fun o x => o.objectWrites x.1 x.2)
    (Overlay.start s snapshot) snapshot.objects ++
  Overlay.along (fun o x => o.updateRoot x.1 x.2) (fun o x => o.rootWrites x.2)
    (Overlay.linked s snapshot) snapshot.captured ++
  if runningTrigger then
    Overlay.along (fun o x => o.createTriggerGlobal x.1 x.2.1 x.2.2)
      (fun o x => o.triggerWrites x.1 x.2.2) (Overlay.updated s snapshot) snapshot.triggers
  else []

namespace Overlay

variable {s : State} {o : Overlay} {b p : BindingId}

/-! ## Children of maps -/

theorem pairs_assignSlot (o : Overlay) (b : BindingId) (value : Json) :
    (o.assignSlot b value).pairs = o.pairs := by
  unfold assignSlot
  split
  · rfl
  · split <;> rfl

theorem pairs_writeItem (o : Overlay) (b : BindingId) (item : Item) :
    (o.writeItem b item).pairs = o.pairs := by
  unfold writeItem
  dsimp only
  rw [pairs_assignSlot]
  cases item.typeName <;> rfl

theorem pairs_resolve (o : Overlay) (noted : BindingId × String) :
    (o.resolve noted).pairs = o.pairs := by
  unfold resolve
  split <;> rfl

theorem pairs_writeRoot (o : Overlay) (b : BindingId) (extent : Extent) (c : Capture) :
    (o.writeRoot b extent c).pairs = o.pairs := by
  unfold writeRoot
  split
  · rfl
  · split
    · split <;> rfl
    · rfl

theorem pairs_updateRoot (o : Overlay) (extent : Extent) (c : Capture) :
    (o.updateRoot extent c).pairs = o.pairs := by
  unfold updateRoot
  split
  · rfl
  · exact pairs_writeRoot ..

theorem pairs_createTriggerGlobal (o : Overlay) (extent : Extent) (c : Capture)
    (symbol : String) : (o.createTriggerGlobal extent c symbol).pairs = o.pairs :=
  pairs_writeRoot ..

/-- The steps of a pass list the children of maps that they tell of. -/
def Lists {α : Type} (f : Overlay → α → Overlay) (g : Overlay → α → List Written) : Prop :=
  ∀ o a, (f o a).pairs = o.pairs ++ (g o a).filterMap Written.pair?

theorem Lists.foldl {α : Type} {f : Overlay → α → Overlay} {g : Overlay → α → List Written}
    (h : Lists f g) (l : List α) (o : Overlay) :
    (l.foldl f o).pairs = o.pairs ++ (along f g o l).filterMap Written.pair? := by
  induction l generalizing o with
  | nil => simp [along]
  | cons a l ih => rw [List.foldl_cons, ih, h, along, List.filterMap_append, List.append_assoc]

theorem pairs_openPair (o : Overlay) (b : BindingId) (index : Nat) :
    (o.openPair b index).2.pairs = o.pairs ++ [(o.openPair b index).1] := by
  simp only [openPair, enlist, childOrCreate, mapState, mapStore]

theorem lists_writePair (b : BindingId) (extent : Extent) :
    Lists (fun o (e : Entry × Nat) => o.writePair b extent.keyType extent.itemType e.2 e.1)
      fun o e => o.pairWrites b extent e.2 e.1 := by
  intro o e
  dsimp only
  rw [writePair_eq, pairs_writeItem, pairs_writeItem, pairs_openPair]
  simp only [pairWrites, itemWrites, List.filterMap, Written.pair?, List.cons_append,
    List.nil_append]

theorem lists_writeItem (b : BindingId) : Lists (·.writeItem b) (·.itemWrites b) := by
  intro o item
  rw [pairs_writeItem]
  exact (List.append_nil _).symm

theorem lists_refreshObject :
    Lists (fun o (x : Extent × Capture) => o.refreshObject x.1 x.2)
      fun o x => o.objectWrites x.1 x.2 := by
  intro o x
  dsimp only
  rw [refreshObject_eq, ← o.pairs_openObject x.1 x.2]
  unfold objectWrites contentWrites
  generalize o.openObject x.1 x.2 = o, (o.objectAt x.2.address).1 = b
  cases h : x.1.mapEntries? x.2.content with
  | some entries =>
    rw [writeContent_of_map h]
    dsimp only
    exact (lists_writePair b x.1).foldl entries.zipIdx o
  | none =>
    rw [writeContent_of_items h]
    dsimp only
    exact (lists_writeItem b).foldl (x.1.items x.2.content) o

theorem lists_updateRoot :
    Lists (fun o (x : Extent × Capture) => o.updateRoot x.1 x.2) fun o x => o.rootWrites x.2 := by
  intro o x
  dsimp only
  rw [pairs_updateRoot, rootWrites]
  cases x.2.firstSymbol?.bind o.rootOf? <;> exact (List.append_nil _).symm

theorem lists_createTriggerGlobal :
    Lists (fun o (x : Extent × Capture × String) => o.createTriggerGlobal x.1 x.2.1 x.2.2)
      fun o x => o.triggerWrites x.1 x.2.2 := by
  intro o x
  dsimp only
  rw [pairs_createTriggerGlobal]
  exact (List.append_nil _).symm

theorem pairs_resolvePending (o : Overlay) : o.resolvePending.pairs = o.pairs :=
  foldl_keeps Overlay.pairs pairs_resolve o.pending { o with pending := [] }

/-- **The children of maps that are listed** are those that the overlay writes. -/
theorem pairs_untold (s : State) (snapshot : Snapshot) (runningTrigger : Bool) :
    (untold s snapshot runningTrigger).pairs =
      (s.writes snapshot runningTrigger).filterMap Written.pair? := by
  have hlinked : (linked s snapshot).pairs =
      (along (fun o x => o.refreshObject x.1 x.2) (fun o x => o.objectWrites x.1 x.2)
        (start s snapshot) snapshot.objects).filterMap Written.pair? := by
    rw [linked, pairs_resolvePending, written, refreshObjects_eq]
    exact lists_refreshObject.foldl snapshot.objects (start s snapshot)
  unfold untold State.writes
  rw [List.filterMap_append, List.filterMap_append, ← hlinked,
    ← lists_updateRoot.foldl snapshot.captured, ← updateRoots_eq, ← updated]
  cases runningTrigger with
  | false => exact (List.append_nil _).symm
  | true =>
    simp only [if_true]
    rw [← lists_createTriggerGlobal.foldl snapshot.triggers, ← createTriggerGlobals_eq]

theorem root_not_mem_objectWrites (o : Overlay) (extent : Extent) (c : Capture) :
    .root b ∉ o.objectWrites extent c := by
  intro h
  unfold objectWrites contentWrites at h
  split at h <;> obtain ⟨before, a, behind, -, h⟩ := mem_along.1 h
  · simp [pairWrites, itemWrites] at h
  · simp [itemWrites] at h

/-- **No variable that is written is a child of a map.** -/
theorem root_not_pair (hs : s.Sound) {snapshot : Snapshot} {runningTrigger : Bool}
    (hb : .root b ∈ s.writes snapshot runningTrigger) :
    b ∉ (untold s snapshot runningTrigger).pairs := by
  obtain ⟨hsound, hpaired⟩ := paired_linked hs snapshot
  have v := (leads_linked hs snapshot).valid
  have hupdated := leads_updated hs snapshot
  have rootPairs : ∀ l : List (Extent × Capture),
      (l.foldl (fun o x => o.updateRoot x.1 x.2) (linked s snapshot)).pairs =
        (linked s snapshot).pairs := by
    intro l
    have step : ∀ (o : Overlay) (x : Extent × Capture), (o.updateRoot x.1 x.2).pairs = o.pairs :=
      fun o x => pairs_updateRoot o x.1 x.2
    exact foldl_keeps _ step l _
  have triggerPairs : ∀ l : List (Extent × Capture × String),
      (l.foldl (fun o x => o.createTriggerGlobal x.1 x.2.1 x.2.2) (updated s snapshot)).pairs =
        (linked s snapshot).pairs := by
    intro l
    have step : ∀ (o : Overlay) (x : Extent × Capture × String),
        (o.createTriggerGlobal x.1 x.2.1 x.2.2).pairs = o.pairs :=
      fun o x => pairs_createTriggerGlobal o x.1 x.2.1 x.2.2
    rw [foldl_keeps Overlay.pairs step, updated, updateRoots_eq, rootPairs]
  have same : (untold s snapshot runningTrigger).pairs = (linked s snapshot).pairs := by
    unfold untold
    split
    · rw [createTriggerGlobals_eq, triggerPairs]
    · rw [updated, updateRoots_eq, rootPairs]
  rw [same]
  unfold State.writes at hb
  rw [List.mem_append, List.mem_append] at hb
  rcases hb with (hb | hb) | hb
  · obtain ⟨before, x, behind, -, hb⟩ := mem_along.1 hb
    exact absurd hb (root_not_mem_objectWrites _ _ _)
  · -- the variable is in a place that children of maps do not take
    obtain ⟨before, x, behind, hsplit, hb⟩ := mem_along.1 hb
    obtain ⟨hbefore, -, -⟩ := Leads.foldl_split v
      (fun x _ h => leads_updateRoot h.valid x.1 x.2) hsplit
    rw [rootWrites, Option.mem_toList, Option.map_eq_some_iff] at hb
    obtain ⟨c, hc, hcb⟩ := hb
    cases hcb
    obtain ⟨symbol, -, hroot⟩ := Option.bind_eq_some_iff.1 hc
    obtain ⟨y, hvar, hy⟩ := slot?_of_rootOf hroot
    rw [← rootPairs before]
    exact fun hp => hvar.not_mayHoldPair ((hbefore.paired v hsound hpaired b hp).placed y hy)
  · -- the variable is new
    split at hb
    · obtain ⟨before, x, behind, hsplit, hb⟩ := mem_along.1 hb
      obtain ⟨hbefore, -, -⟩ := Leads.foldl_split hupdated.valid
        (fun x _ h => leads_createTriggerGlobal h.valid x.1 x.2.1 x.2.2) hsplit
      rw [triggerWrites, List.mem_singleton] at hb
      cases hb
      rw [← triggerPairs before]
      intro hp
      have hpairs := (hupdated.trans hbefore).paired v hsound hpaired
      exact Store.not_has_create _ _ _ _ (hpairs _ hp).has
    · cases hb

/-- **All that is written is settled** before the texts are. -/
theorem calm_untold (hs : s.Sound) (snapshot : Snapshot) (runningTrigger : Bool) :
    ∀ w ∈ s.writes snapshot runningTrigger, (untold s snapshot runningTrigger).Calm w := by
  have hwritten := leads_written hs snapshot
  have hlinked := leads_linked hs snapshot
  have hupdated := leads_updated hs snapshot
  have huntold := leads_untold hs snapshot runningTrigger
  have kept : ∀ {w} {o o' : Overlay}, o.Valid → o.Move o' → o.Calm w → o'.Calm w :=
    fun _ m => m.calm
  intro w hw
  unfold State.writes at hw
  rw [List.mem_append, List.mem_append] at hw
  rcases hw with (hw | hw) | hw
  · have notes : (written s snapshot).Notes w := by
      rw [written, refreshObjects_eq]
      refine holds_along (I := Notes) (valid_start hs snapshot) (fun _ m => m.notes)
        (fun x _ h => ?_) (fun x _ h => ?_) w hw
      · exact leads_refreshObject h.valid x.1 x.2
      · exact notes_refreshObject h.valid x.1 x.2
    have calm : (linked s snapshot).Calm w := by
      cases w with
      | slot b | root b => exact quiet_resolvePending hwritten.valid notes
      | pair => trivial
    exact (hupdated.trans huntold).keeps (I := fun o => o.Calm w) kept hlinked.valid calm
  · have calm : (updated s snapshot).Calm w := by
      rw [updated, updateRoots_eq]
      refine holds_along (I := Calm) hlinked.valid kept (fun x _ h => ?_) (fun x _ h => ?_) w hw
      · exact leads_updateRoot h.valid x.1 x.2
      · exact calm_updateRoot h.valid x.1 x.2
    exact huntold.keeps (I := fun o => o.Calm w) kept hupdated.valid calm
  · unfold untold
    split at hw
    · next htrigger =>
      rw [if_pos htrigger, createTriggerGlobals_eq]
      refine holds_along (I := Calm) hupdated.valid kept (fun x _ h => ?_) (fun x _ h => ?_) w hw
      · exact leads_createTriggerGlobal h.valid x.1 x.2.1 x.2.2
      · exact calm_createTriggerGlobal _ x.1 x.2.1 x.2.2
    · cases hw

end Overlay

/-- **Texts are up to date.** In a well-formed state, which all states of runs are, let any snapshot
be written, with whatever objects in it shared or running in circles, and addresses listed twice.
Then every entry of a known object holds the text of the object, as does every child that the
overlay wrote and every variable, if it refers to an object. Children of maps are called by the
final value of their key, and show the final value of their value. -/
theorem State.displays_overlay {s : State} (h : s.WellFormed) (snapshot : Snapshot)
    (runningTrigger : Bool) :
    let t := s.overlay snapshot runningTrigger
    let written := s.writes snapshot runningTrigger
    (∀ key b, t.references.get? key = some b → t.store.Displays b) ∧
    (∀ b, .slot b ∈ written → .pair b ∉ written → t.store.Displays b) ∧
    (∀ b, .root b ∈ written → t.store.Displays b) ∧
    ∀ p, .pair p ∈ written → (t.store.get p).name = t.store.partText p pairKey ∧
      (t.store.get p).value = t.store.partText p pairValue := by
  intro t written
  have hpaired := Overlay.paired_untold h.sound snapshot runningTrigger
  have hcalm := Overlay.calm_untold h.sound snapshot runningTrigger
  have hpairs : ∀ p, p ∈ (Overlay.untold s snapshot runningTrigger).pairs ↔ .pair p ∈ written := by
    intro p
    rw [Overlay.pairs_untold, List.mem_filterMap]
    constructor
    · rintro ⟨w, hw, hp⟩
      cases w with
      | pair q => cases hp; exact hw
      | slot | root => cases hp
    · exact fun hp => ⟨_, hp, rfl⟩
  obtain ⟨-, mirrors, hget⟩ := Overlay.get_texts hpaired
  -- a binding that is no child of a map holds the text of its object if that was written anew
  have shown : ∀ b, b ∉ (Overlay.untold s snapshot runningTrigger).pairs →
      ((Overlay.untold s snapshot runningTrigger).state.store.IsObject b →
        b ∈ (Overlay.untold s snapshot runningTrigger).targets) → t.store.Displays b := by
    intro b hpair htarget hobj
    have hobj' := (mirrors.isObject_iff (b := b) rfl).1 hobj
    have := hget b
    rw [if_neg hpair, if_pos ⟨htarget hobj', hobj'⟩] at this
    exact congrArg Binding.value this
  have quiet : ∀ b, (Overlay.untold s snapshot runningTrigger).Quiet b →
      (Overlay.untold s snapshot runningTrigger).state.store.IsObject b →
        b ∈ (Overlay.untold s snapshot runningTrigger).targets := fun b hq hobj =>
    List.mem_append_left _ (hq (Option.isSome_iff_ne_none.1 hobj.1))
  refine ⟨fun key b hb => ?_, fun b hb hpair => ?_, fun b hb => ?_, fun p hp => ?_⟩
  · refine shown b (fun hp => (hpaired b hp).placed (.object key) hb) fun _ => ?_
    exact List.mem_append_right _ (Table.mem_values_iff.2 ⟨key, hb⟩)
  · exact shown b (fun hp => hpair ((hpairs b).1 hp)) (quiet b (hcalm _ hb))
  · exact shown b (Overlay.root_not_pair h.sound hb) (quiet b (hcalm _ hb))
  · have := hget p
    rw [if_pos ((hpairs p).2 hp)] at this
    exact ⟨congrArg Binding.name this, congrArg Binding.value this⟩

/-- An object with a field that refers to the object itself, and a map that holds itself under a key
which the snapshot lists behind it. -/
def keyedSnapshot : Snapshot where
  extents :=
    [{ typeName := "A"
       captures :=
        [{ address := "0x1"
           symbols := some ["a"]
           content := { entries := some [⟨"next", .string "0x1"⟩] } }] },
      { typeName := "Map<String,Object>"
        collectionType := some "Object"
        captures :=
          [{ address := "0x2"
             symbols := some ["Trigger.newMap"]
             content := { entries := some [⟨"0x3", .string "0x2"⟩] } }] },
      { typeName := "String"
        captures := [{ address := "0x3", content := { value := .string "k" } }] }]

/-- A variable refers to an object. -/
def objectLog : List String :=
  ["62.0 APEX_CODE,FINEST",
    "0|METHOD_ENTRY|[1]|01p|A.f()",
    "0|VARIABLE_SCOPE_BEGIN|[1]|a|A|true|false",
    "0|VARIABLE_ASSIGNMENT|[1]|a|\x7b\"y\":1\x7d|0x1",
    "0|STATEMENT_EXECUTE|[3]"]

set_option maxRecDepth 100000 in
/-- The object and the map mention themselves in their texts. The field that refers to the object
and the variable that refers to the map hold the same texts; the child of the map is called by the
string that is its key. -/
theorem State.displays_keyedSnapshot :
    let s := ((Replay.fresh {} (fun _ => none) objectLog).performAll [.advance, .advance]).live
    let t := s.overlay keyedSnapshot true
    let written := s.writes keyedSnapshot true
    s.WellFormed ∧
      (∃ object, t.references.get? "0x1" = some object ∧
        (t.store.get object).value = "A:\x7by=1, already output\x7d") ∧
      (∃ next, .slot next ∈ written ∧ (t.store.get next).name = "next" ∧
        (t.store.get next).value = "A:\x7by=1, already output\x7d") ∧
      (∃ newMap, .root newMap ∈ written ∧ (t.store.get newMap).name = "Trigger.newMap" ∧
        (t.store.get newMap).value = "\x7b'k'=already output\x7d") ∧
      ∃ pair, .pair pair ∈ written ∧ (t.store.get pair).name = "'k'" ∧
        (t.store.get pair).value = "Object:\x7b'k'=already output\x7d" := by
  intro s t written
  have h : s.WellFormed := ((Replay.wellFormed_fresh {} (fun _ => none) objectLog).run _).live
  obtain ⟨objects, slots, roots, pairs⟩ := State.displays_overlay h keyedSnapshot true
  have known : t.references.get? "0x1" = some ⟨1⟩ := by decide +kernel
  have wrote : .slot ⟨3⟩ ∈ written ∧ .slot ⟨7⟩ ∈ written ∧ .root ⟨8⟩ ∈ written ∧
      .pair ⟨5⟩ ∈ written ∧ .pair ⟨3⟩ ∉ written ∧ .pair ⟨7⟩ ∉ written := by decide +kernel
  obtain ⟨next, value, newMap, pair, next', value'⟩ := wrote
  have called : (t.store.get ⟨3⟩).name = "next" ∧ (t.store.get ⟨8⟩).name = "Trigger.newMap" ∧
      t.store.partText ⟨5⟩ pairKey = "'k'" ∧ t.store.child? ⟨5⟩ pairValue = some ⟨7⟩ := by
    decide +kernel
  -- each of them refers to an object in which there is no other
  have refers : ∀ b ∈ [⟨1⟩, ⟨3⟩, ⟨7⟩, ⟨8⟩], t.store.IsObject b ∧ ∀ c ∈ (t.store.children b).values,
      ∀ d ∈ c :: ((t.store.child? c pairKey).toList ++ (t.store.child? c pairValue).toList),
        t.store.IsObject d → (t.store.get d).reference = (t.store.get b).reference := by
    decide +kernel
  obtain ⟨refers1, refers⟩ := List.forall_mem_cons.1 refers
  obtain ⟨refers3, refers⟩ := List.forall_mem_cons.1 refers
  obtain ⟨refers7, refers⟩ := List.forall_mem_cons.1 refers
  have refers8 := List.forall_mem_singleton.1 refers
  have text1 : t.store.display ⟨1⟩ = "A:\x7by=1, already output\x7d" :=
    (Store.display_of_forall refers1.1 refers1.2).trans (by decide +kernel)
  have text3 : t.store.display ⟨3⟩ = "A:\x7by=1, already output\x7d" :=
    (Store.display_of_forall refers3.1 refers3.2).trans (by decide +kernel)
  have text7 : t.store.display ⟨7⟩ = "Object:\x7b'k'=already output\x7d" :=
    (Store.display_of_forall refers7.1 refers7.2).trans (by decide +kernel)
  have text8 : t.store.display ⟨8⟩ = "\x7b'k'=already output\x7d" :=
    (Store.display_of_forall refers8.1 refers8.2).trans (by decide +kernel)
  have shown : t.store.partText ⟨5⟩ pairValue = "Object:\x7b'k'=already output\x7d" := by
    rw [Store.partText, called.2.2.2]
    exact (slots _ value value' refers7.1).trans text7
  exact ⟨h, ⟨⟨1⟩, known, (objects _ _ known refers1.1).trans text1⟩,
    ⟨⟨3⟩, next, called.1, (slots _ next next' refers3.1).trans text3⟩,
    ⟨⟨8⟩, newMap, called.2.1, (roots _ newMap refers8.1).trans text8⟩,
    ⟨5⟩, pair, (pairs _ pair).1.trans called.2.2.1, (pairs _ pair).2.trans shown⟩

end Retrace
