import Retrace.Proofs.Overlay.Passes
import Retrace.Proofs.Tables

/-!
# What single writes of an overlay show

Each write of an overlay is about one binding. What it makes of this binding is told here, and that
it leaves the other bindings alone.

* `Overlay.get_setScalar_self`, `Overlay.get_link_self`: the binding written.
* `Overlay.get_childOrCreate`, `Overlay.objectAt_cases`: bindings that are looked up or made.
* `Overlay.get_openObject_of_ne`, …: the bindings that are not written.
* `Overlay.references_refreshObject`, `Overlay.references_untold`, …: which objects are known.
-/

namespace Retrace

variable {s : Store} {o : Overlay} {b c : BindingId}

theorem Store.collection_clear (s : Store) (b : BindingId) (c : CollectionId) :
    (s.clear b).collection c = if c = (s.get b).children then .empty else s.collection c := by
  unfold clear
  by_cases h : c = (s.get b).children
  · rw [if_pos h]
    by_cases has : s.HasCollection c
    · exact h ▸ collection_modifyCollection_self _ (h ▸ has)
    · exact collection_of_not_has _ (mt (hasCollection_modifyCollection ..).1 has)
  · rw [if_neg h]
    exact collection_modifyCollection_of_ne _ h

namespace State

theorem get_ensureHandle_self (s : State) (hb : s.store.Has b) :
    ∃ n, (s.ensureHandle b).store.get b = { s.store.get b with handle := some n } := by
  unfold ensureHandle
  split
  · next n hn => exact ⟨n, by rw [← hn]⟩
  · exact ⟨_, Store.get_modify_self _ hb⟩

end State

namespace Overlay

/-! ## Types -/

theorem get_setType_self (hb : o.state.store.Has b) (type : String) :
    (o.mapStore (·.setType b type)).state.store.get b =
      { o.state.store.get b with typeName := type } :=
  Store.get_modify_self _ hb

theorem get_setType_of_ne (h : c ≠ b) (type : String) :
    (o.mapStore (·.setType b type)).state.store.get c = o.state.store.get c :=
  Store.get_modify_of_ne _ h

/-! ## Values -/

theorem get_setValue_self (hb : o.state.store.Has b) (text : String) :
    (o.mapStore (·.setValue b text)).state.store.get b =
      { o.state.store.get b with value := text } :=
  Store.get_modify_self _ hb

theorem get_setValue_of_ne (h : c ≠ b) (text : String) :
    (o.mapStore (·.setValue b text)).state.store.get c = o.state.store.get c :=
  Store.get_modify_of_ne _ h

theorem setScalar_eq (o : Overlay) (b : BindingId) (text : String) :
    (o.setScalar b text).state.store =
      if (o.state.store.get b).reference.isSome then
        ((o.state.store.detach b).modify b fun binding =>
          { binding with reference := none }).setValue b text
      else o.state.store.setValue b text := by
  unfold setScalar mapStore mapState State.mapStore
  dsimp only
  split <;> rfl

theorem get_setScalar_self (hb : o.state.store.Has b) (text : String) :
    (o.setScalar b text).state.store.get b =
      { o.state.store.get b with
        value := text
        reference := none
        children := if (o.state.store.get b).reference.isSome then
          ⟨o.state.store.collections.size⟩ else (o.state.store.get b).children } := by
  rw [setScalar_eq]
  split
  · have hdetached : (o.state.store.detach b).Has b := (Store.has_modify ..).2 hb
    have hplain : ((o.state.store.detach b).modify b fun binding =>
        { binding with reference := none }).Has b := (Store.has_modify ..).2 hdetached
    have hget : (o.state.store.detach b).get b = { o.state.store.get b with
        children := ⟨o.state.store.collections.size⟩ } := Store.get_modify_self _ hb
    refine (Store.get_modify_self _ hplain).trans ?_
    rw [Store.get_modify_self _ hdetached, hget]
  · next hnone =>
    refine (Store.get_modify_self _ hb).trans ?_
    rw [Option.not_isSome_iff_eq_none.1 hnone]

theorem get_setScalar_of_ne (h : c ≠ b) (text : String) :
    (o.setScalar b text).state.store.get c = o.state.store.get c := by
  rw [setScalar_eq]
  split
  · exact (Store.get_modify_of_ne _ h).trans
      ((Store.get_modify_of_ne _ h).trans (Store.get_modify_of_ne _ h))
  · exact Store.get_modify_of_ne _ h

/-! ## References -/

theorem get_link_self (hb : o.state.store.Has b) (entry : BindingId) (address : String) :
    ∃ n, (o.link b entry address).state.store.get b =
      { o.state.store.get b with
        reference := some address
        typeName := if (o.state.store.get b).typeName = "" then
          (o.state.store.get entry).typeName else (o.state.store.get b).typeName
        handle := some n
        children := (o.state.store.get entry).children } := by
  have hshared : (o.state.store.share b entry).Has b := (Store.has_modify ..).2 hb
  obtain ⟨n, hn⟩ := State.get_ensureHandle_self
    { o.state with
      store := (o.state.store.share b entry).modify b fun binding =>
        { binding with
          reference := some address
          typeName := if binding.typeName = "" then (o.state.store.get entry).typeName
            else binding.typeName } } (b := b) ((Store.has_modify ..).2 hshared)
  refine ⟨n, hn.trans ?_⟩
  dsimp only
  rw [Store.get_modify_self _ hshared, Store.get_share_self hb]

theorem get_link_of_ne (h : c ≠ b) (entry : BindingId) (address : String) :
    (o.link b entry address).state.store.get c = o.state.store.get c :=
  (State.get_ensureHandle_of_ne h).trans
    ((Store.get_modify_of_ne _ h).trans (Store.get_modify_of_ne _ h))

/-! ## Children -/

theorem get_childOrCreate (hc : o.state.store.Has c) (b : BindingId) (name : String) :
    (o.childOrCreate b name).2.state.store.get c = o.state.store.get c := by
  rcases o.state.childOrCreate_cases b name with ⟨hsame, -⟩ | ⟨-, hnew⟩
  · exact congrArg (fun s : State => s.store.get c) hsame
  · refine (congrArg (fun s : State => s.store.get c) hnew).trans ?_
    exact Store.get_create_of_ne _ _ _ _ fun h => o.state.store.not_has_create _ _ _ (h ▸ hc)

/-! ## Objects -/

section OpenObject

variable (o : Overlay) (extent : Extent) (capture : Capture)

theorem pending_openObject : (o.openObject extent capture).pending = o.pending :=
  (o.objectAt_notes capture.address).1

theorem touched_openObject :
    (o.openObject extent capture).touched = o.touched ++ [(o.objectAt capture.address).1] :=
  congrArg (· ++ [(o.objectAt capture.address).1]) (o.objectAt_notes capture.address).2.1

theorem pairs_openObject : (o.openObject extent capture).pairs = o.pairs :=
  (o.objectAt_notes capture.address).2.2.1

theorem objectAt_cases (address : String) :
    (o.state.references.get? address = some (o.objectAt address).1 ∧
      (o.objectAt address).2 = o) ∨
    (o.state.references.get? address = none ∧
      (o.objectAt address).1 = (o.state.store.create "" "" "").1 ∧
      (o.objectAt address).2.state =
        { o.state with
          store := (o.state.store.create "" "" "").2
          references := o.state.references.insert address (o.state.store.create "" "" "").1 }) := by
  unfold objectAt
  split
  · next b h => exact .inl ⟨h, rfl⟩
  · next h => exact .inr ⟨h, rfl, rfl⟩

theorem get_objectAt_of_ne {address : String} (h : b ≠ (o.objectAt address).1) :
    (o.objectAt address).2.state.store.get b = o.state.store.get b := by
  rcases o.objectAt_cases address with ⟨-, hsame⟩ | ⟨-, hnew, hstate⟩
  · rw [hsame]
  · rw [hstate]
    exact Store.get_create_of_ne _ _ _ _ (hnew ▸ h)

theorem get_openObject_of_ne (h : b ≠ (o.objectAt capture.address).1) :
    (o.openObject extent capture).state.store.get b = o.state.store.get b := by
  rw [← o.get_objectAt_of_ne h]
  unfold openObject
  dsimp only
  split <;> exact Store.get_modify_of_ne _ h

theorem get_openObject_self
    (has : (o.objectAt capture.address).2.state.store.Has (o.objectAt capture.address).1) :
    (o.openObject extent capture).state.store.get (o.objectAt capture.address).1 =
      { (o.objectAt capture.address).2.state.store.get (o.objectAt capture.address).1 with
        typeName := extent.typeName
        reference := some capture.address } := by
  unfold openObject
  dsimp only
  split <;> exact Store.get_modify_self _ has

/-- The collection of the object is emptied, unless its children are to be merged. -/
theorem collection_openObject (c : CollectionId) :
    (o.openObject extent capture).state.store.collection c =
      if c = ((o.objectAt capture.address).2.state.store.get
          (o.objectAt capture.address).1).children ∧
          o.merges extent.typeName capture.address = false then .empty
      else o.state.store.collection c := by
  let f : Binding → Binding := fun binding =>
    { binding with typeName := extent.typeName, reference := some capture.address }
  have same : (o.objectAt capture.address).2.state.store.collection c =
      o.state.store.collection c := by
    rcases o.objectAt_cases capture.address with ⟨-, hsame⟩ | ⟨-, -, hstate⟩
    · rw [hsame]
    · rw [hstate]
      exact o.state.store.collection_create "" "" "" c
  unfold openObject
  dsimp only
  split
  · next h =>
    rw [if_neg fun hc => by simp [h] at hc]
    exact same
  · next h =>
    refine (Store.collection_clear ..).trans ?_
    rw [Store.get_modify_field f Binding.children fun _ => rfl]
    simp only [Bool.not_eq_true] at h
    simp only [h, and_true]
    exact if_congr Iff.rfl rfl same

end OpenObject

end Overlay

/-! ## Known objects -/

namespace Overlay

theorem references_link (o : Overlay) (b entry : BindingId) (address : String) :
    (o.link b entry address).state.references = o.state.references :=
  State.references_ensureHandle _ b

theorem references_assignSlot (o : Overlay) (b : BindingId) (value : Json) :
    (o.assignSlot b value).state.references = o.state.references := by
  unfold assignSlot
  split
  · rfl
  · split <;> rfl

theorem references_writeItem (o : Overlay) (b : BindingId) (item : Item) :
    (o.writeItem b item).state.references = o.state.references := by
  unfold writeItem
  dsimp only
  rw [references_assignSlot]
  cases item.typeName <;> rfl

theorem references_openPair (o : Overlay) (b : BindingId) (index : Nat) :
    (o.openPair b index).2.state.references = o.state.references :=
  State.references_ensureHandle _ _

theorem references_writeContent (o : Overlay) (b : BindingId) (extent : Extent)
    (content : Content) :
    (o.writeContent b extent content).state.references = o.state.references := by
  cases h : extent.mapEntries? content with
  | some entries =>
    rw [writeContent_of_map h]
    refine foldl_keeps (fun o : Overlay => o.state.references) (fun o e => ?_) _ o
    rw [writePair_eq, references_writeItem, references_writeItem, references_openPair]
  | none =>
    rw [writeContent_of_items h]
    exact foldl_keeps (fun o : Overlay => o.state.references)
      (fun o item => references_writeItem o b item) _ o

theorem references_openObject (o : Overlay) (extent : Extent) (c : Capture) (key : String) :
    (o.openObject extent c).state.references.get? key =
      if key = c.address then some (o.objectAt c.address).1
      else o.state.references.get? key := by
  have opened : (o.openObject extent c).state.references =
      (o.objectAt c.address).2.state.references := by
    unfold openObject
    dsimp only
    split <;> rfl
  rw [opened]
  rcases o.objectAt_cases c.address with ⟨hknown, hsame⟩ | ⟨-, hnew, hstate⟩
  · rw [hsame]
    split
    · next h => rw [h, hknown]
    · rfl
  · rw [hstate, hnew]
    exact Table.get?_insert ..

theorem references_refreshObject (o : Overlay) (extent : Extent) (c : Capture) (key : String) :
    (o.refreshObject extent c).state.references.get? key =
      if key = c.address then some (o.objectAt c.address).1
      else o.state.references.get? key := by
  rw [refreshObject_eq, references_writeContent, references_openObject]

theorem references_resolve (o : Overlay) (noted : BindingId × String) :
    (o.resolve noted).state.references = o.state.references := by
  unfold resolve
  split
  · exact references_link ..
  · rfl

theorem references_resolvePending (o : Overlay) :
    o.resolvePending.state.references = o.state.references :=
  foldl_keeps (fun o : Overlay => o.state.references) references_resolve o.pending
    { o with pending := [] }

theorem references_writeRoot (o : Overlay) (b : BindingId) (extent : Extent) (c : Capture) :
    (o.writeRoot b extent c).state.references = o.state.references := by
  unfold writeRoot
  split
  · rfl
  · split
    · split
      · rfl
      · exact references_link ..
    · rfl

theorem references_updateRoot (o : Overlay) (extent : Extent) (c : Capture) :
    (o.updateRoot extent c).state.references = o.state.references := by
  unfold updateRoot
  split
  · rfl
  · exact references_writeRoot ..

theorem references_insertGlobal (s : State) (name : String) (b : BindingId) :
    (s.insertGlobal name b).references = s.references := by
  unfold State.insertGlobal State.modifyTop
  split <;> rfl

theorem references_createTriggerGlobal (o : Overlay) (extent : Extent) (c : Capture)
    (symbol : String) :
    (o.createTriggerGlobal extent c symbol).state.references = o.state.references :=
  (references_insertGlobal _ symbol _).trans (references_writeRoot ..)

theorem references_linked (s : State) (snapshot : Snapshot) :
    (linked s snapshot).state.references = (written s snapshot).state.references :=
  references_resolvePending _

theorem references_updated (s : State) (snapshot : Snapshot) :
    (updated s snapshot).state.references = (written s snapshot).state.references := by
  have step : ∀ (o : Overlay) (x : Extent × Capture),
      (o.updateRoot x.1 x.2).state.references = o.state.references :=
    fun o x => references_updateRoot o x.1 x.2
  rw [updated, updateRoots_eq, ← references_linked]
  exact foldl_keeps (fun o : Overlay => o.state.references) step _ _

theorem references_untold (s : State) (snapshot : Snapshot) (runningTrigger : Bool) :
    (untold s snapshot runningTrigger).state.references =
      (written s snapshot).state.references := by
  have step : ∀ (o : Overlay) (x : Extent × Capture × String),
      (o.createTriggerGlobal x.1 x.2.1 x.2.2).state.references = o.state.references :=
    fun o x => references_createTriggerGlobal o x.1 x.2.1 x.2.2
  unfold untold
  split
  · rw [createTriggerGlobals_eq, ← references_updated]
    exact foldl_keeps (fun o : Overlay => o.state.references) step _ _
  · exact references_updated s snapshot

end Overlay

end Retrace
