import Retrace.Proofs.Overlay.Moves

/-!
# The pass over captured objects

Every captured object gets its children, and addresses among them are noted. When all objects are
there, the noted addresses become references.

* `Overlay.writeItem`, `Overlay.openPair`: how a child is written, and the child of a map.
* `Overlay.leads_refreshObject`, **`Overlay.leads_refreshObjects`**: captured objects are moves.
* **`Overlay.leads_resolvePending`**: so are the references that waited.
-/

namespace Retrace

namespace Overlay

variable {o : Overlay} {b : BindingId}

/-! ## Objects -/

/-- A child is looked up or made, gets its type, when one is told, and a captured value. -/
def writeItem (o : Overlay) (b : BindingId) (item : Item) : Overlay :=
  let (child, o) := o.childOrCreate b item.name
  (item.typeName.elim o fun type => o.mapStore (·.setType child type)).assignSlot child item.value

/-- A child of a map gets its type and a handle, and is listed. -/
def enlist (o : Overlay) (pair : BindingId) : Overlay :=
  let o := (o.mapStore (·.setType pair pairType)).mapState (·.ensureHandle pair)
  { o with pairs := o.pairs ++ [pair] }

/-- A child of a map is looked up or made, gets its type and a handle, and is listed. -/
def openPair (o : Overlay) (b : BindingId) (index : Nat) : BindingId × Overlay :=
  let (pair, o) := o.childOrCreate b (Slot.pairName index)
  (pair, o.enlist pair)

theorem writePair_eq (o : Overlay) (b : BindingId) (extent : Extent) (index : Nat)
    (entry : Entry) : o.writePair b extent.keyType extent.itemType index entry =
      ((o.openPair b index).2.writeItem (o.openPair b index).1 (extent.keyItem entry)).writeItem
        (o.openPair b index).1 (extent.valueItem entry) := by
  simp only [writePair, openPair, enlist, writeItem, Extent.keyItem, Extent.valueItem, Slot.pairName,
    Option.elim_some]

theorem writeContent_of_map {extent : Extent} {content : Content} {entries : List Entry}
    (h : extent.mapEntries? content = some entries) (o : Overlay) (b : BindingId) :
    o.writeContent b extent content = entries.zipIdx.foldl
      (fun o e => o.writePair b extent.keyType extent.itemType e.2 e.1) o := by
  unfold Extent.mapEntries? at h
  unfold writeContent
  split at h
  · next hc => simp only [hc, if_true, h]; rfl
  · cases h

theorem writeContent_of_items {extent : Extent} {content : Content}
    (h : extent.mapEntries? content = none) (o : Overlay) (b : BindingId) :
    o.writeContent b extent content = (extent.items content).foldl (·.writeItem b) o := by
  unfold Extent.mapEntries? at h
  unfold writeContent Extent.items
  split at h
  · next hc =>
    simp only [hc, if_true, h, List.foldl_map]
    rfl
  · next hc =>
    simp only [hc, Bool.false_eq_true, if_false, List.foldl_map]
    rfl

theorem leads_writeItem (v : o.Valid) (hb : o.state.store.Has b) {item : Item}
    (hitem : item.NoPair) : o.Leads (o.writeItem b item) := by
  obtain ⟨hc, hslot⟩ := leads_childOrCreate v hb item.name
  have hi := hc.valid.orderly.inner hslot fun _ => by simp
  unfold writeItem
  cases htype : item.typeName with
  | none => exact hc.trans (leads_assignSlot hc.valid hi item.value)
  | some type =>
    have htyped : Leads _ ((o.childOrCreate b item.name).2.mapStore
        (·.setType (o.childOrCreate b item.name).1 type)) :=
      .single hc.valid (.type hslot (.inr fun ⟨index, h⟩ =>
        hitem.elim (fun hnone => by simp [htype] at hnone) fun hname => hname index h))
    exact hc.trans (htyped.trans (leads_assignSlot htyped.valid (htyped.inner hi) item.value))

theorem leads_enlist (v : o.Valid) {c : CollectionId} {index : Nat} {p : BindingId}
    (placed : o.state.slot? (.field c (Slot.pairName index)) = some p) :
    o.Leads (o.enlist p) := by
  let typed := o.mapStore (·.setType p pairType)
  let numbered := typed.mapState (·.ensureHandle p)
  have hp := v.orderly.has placed
  have htyped : o.Leads typed := .single v (.type placed (.inl rfl))
  have hnumbered : typed.Leads numbered := .single htyped.valid (.number (htyped.has hp))
  have placed' : numbered.state.slot? (.field c (Slot.pairName index)) = some p :=
    ((State.samePlaces_ensureHandle typed.state p).slots _).trans
      (((State.samePlaces_modify _ _ _ _).slots _).trans placed)
  have hpair : (numbered.state.store.get p).typeName = pairType :=
    (State.get_ensureHandle typed.state p Binding.typeName (fun _ _ => rfl) p).trans
      (congrArg Binding.typeName (Store.get_modify_self _ hp))
  exact htyped.trans (hnumbered.trans (.single hnumbered.valid (.pair placed' hpair)))

theorem leads_openPair (v : o.Valid) (hb : o.state.store.Has b) (index : Nat) :
    o.Leads (o.openPair b index).2 ∧
      (o.openPair b index).2.state.store.Has (o.openPair b index).1 := by
  obtain ⟨hchild, placed⟩ := leads_childOrCreate v hb (Slot.pairName index)
  have hlisted := leads_enlist hchild.valid placed
  exact ⟨hchild.trans hlisted, hlisted.has (hchild.valid.orderly.has placed)⟩

theorem leads_writePair (v : o.Valid) (hb : o.state.store.Has b) (extent : Extent) (index : Nat)
    (entry : Entry) : o.Leads (o.writePair b extent.keyType extent.itemType index entry) := by
  obtain ⟨hpair, hp⟩ := leads_openPair v hb index
  have hkey := leads_writeItem hpair.valid hp (extent.noPair_keyItem entry)
  have hvalue := leads_writeItem hkey.valid (hkey.has hp) (extent.noPair_valueItem entry)
  rw [writePair_eq]
  exact hpair.trans (hkey.trans hvalue)

theorem leads_writeContent (v : o.Valid) (hb : o.state.store.Has b) (extent : Extent)
    (content : Content) : o.Leads (o.writeContent b extent content) := by
  cases h : extent.mapEntries? content with
  | some entries =>
    rw [writeContent_of_map h]
    exact .foldl v fun e _ h => leads_writePair h.valid (h.has hb) extent e.2 e.1
  | none =>
    rw [writeContent_of_items h]
    exact .foldl v fun item hitem h =>
      leads_writeItem h.valid (h.has hb) (extent.noPair_items content item hitem)

theorem leads_refreshObject (v : o.Valid) (extent : Extent) (c : Capture) :
    o.Leads (o.refreshObject extent c) := by
  have opened : o.Leads (o.openObject extent c) := .single v (.object extent c)
  rw [refreshObject_eq]
  exact opened.trans
    (leads_writeContent opened.valid (has_openObject v extent c) extent c.content)

theorem leads_refreshObjects (v : o.Valid) (snapshot : Snapshot) :
    o.Leads (o.refreshObjects snapshot) := by
  refine .foldl v fun extent _ h => ?_
  exact .foldl h.valid fun c _ h' => leads_refreshObject h'.valid extent c

theorem Valid.forget (v : o.Valid) : Valid { o with pending := [] } :=
  ⟨v.orderly, fun _ h => absurd h List.not_mem_nil⟩

/-- A child that waits for an address refers to the object there, or shows the address. -/
def resolve (o : Overlay) (noted : BindingId × String) : Overlay :=
  match o.state.references.get? noted.2 with
  | some entry => o.link noted.1 entry noted.2
  | none => o.setScalar noted.1 noted.2

theorem resolvePending_eq (o : Overlay) :
    o.resolvePending = o.pending.foldl resolve { o with pending := [] } := rfl

theorem leads_resolve (v : o.Valid) {noted : BindingId × String} (hb : o.state.Inner noted.1) :
    o.Leads (o.resolve noted) := by
  unfold resolve
  split
  · next entry he => exact leads_link v hb he
  · exact leads_setScalar v hb _

/-- **References that waited** are of bindings that stand for no object. -/
theorem leads_resolvePending (v : o.Valid) : Leads { o with pending := [] } o.resolvePending :=
  .foldl v.forget fun noted hn h => leads_resolve h.valid (h.inner (v.pending noted hn))

end Overlay

end Retrace
