import Mathlib.Data.List.Induction
import Retrace.Proofs.Overlay.Looks

/-!
# Captured children under an overlay

The children of a captured object are written one after the other, into one collection. What is made
of them is told by the looks of the children that were there and by what is captured; bindings and
collections that are no children of the object stay as they are.

* `State.look`, `State.objectLook`, `State.keptForm`: the looks of what was there.
* `writeForm`, `Extent.form`, `Extent.parts`: the looks of captured children.
* `Overlay.Depicts`, `Overlay.DepictsPair`, `Overlay.DepictsMap`: a collection, a child of a map and
  a map as they are told.
* `Overlay.writeItems`: fields and elements.
* `Overlay.DepictsMap.writePair`, **`Overlay.depicts_writePairs`**: the entries of a map.
-/

namespace Retrace

/-! ## What is told of an object -/

/-- The look of a binding that was there. -/
def State.look (s : State) (b : BindingId) : Look where
  toLabel := (s.store.get b).label
  home := .kept (s.store.get b).children
  shown := b ∈ s.references.values

/-- The look of the binding of a captured object. -/
def State.objectLook (s : State) (extent : Extent) (c : Capture) : Look :=
  { (s.references.get? c.address).elim { name := "" } s.look with
    typeName := extent.typeName
    reference := some c.address
    home := .object c.address
    shown := true }

/-- The looks of the children that an object keeps. -/
def State.keptForm (s : State) (extent : Extent) (c : Capture) : Table Look :=
  if ({ state := s } : Overlay).merges extent.typeName c.address then
    (s.references.get? c.address).elim .empty fun entry => (s.store.children entry).map s.look
  else .empty

/-- The looks of children when a captured child is written. -/
def writeForm (strings : String → Option String) (form : Table Look) (item : Item) : Table Look :=
  form.insert item.name (((form.get? item.name).getD { name := item.name }).write strings item)

theorem State.get?_keptForm {s : State} {extent : Extent} {c : Capture} {name : String} {l : Look}
    (h : (s.keptForm extent c).get? name = some l) : ∃ b, l = s.look b := by
  unfold State.keptForm at h
  split at h
  · cases he : s.references.get? c.address with
    | none =>
      rw [he] at h
      cases h
    | some entry =>
      rw [he, Option.elim_some, Table.get?_map, Option.map_eq_some_iff] at h
      obtain ⟨b, -, rfl⟩ := h
      exact ⟨b, rfl⟩
  · cases h

/-- Nothing waits before the object is written. -/
theorem State.getD_keptForm (s : State) (extent : Extent) (c : Capture) (name : String) :
    (((s.keptForm extent c).get? name).getD { name }).waits = [] ∧
      (((s.keptForm extent c).get? name).getD { name }).listed = false := by
  cases h : (s.keptForm extent c).get? name with
  | none => exact ⟨rfl, rfl⟩
  | some l =>
    obtain ⟨b, rfl⟩ := State.get?_keptForm h
    exact ⟨rfl, rfl⟩

section WriteForm

variable {strings : String → Option String} {items : List Item} {form : Table Look}

theorem get?_foldl_writeForm_of_ne {name : String} (h : ∀ item ∈ items, name ≠ item.name) :
    (items.foldl (writeForm strings) form).get? name = form.get? name := by
  induction items generalizing form with
  | nil => rfl
  | cons item items ih =>
    rw [List.foldl_cons, ih fun i hi => h i (List.mem_cons_of_mem _ hi), writeForm,
      Table.get?_insert, if_neg (h item List.mem_cons_self)]

theorem get?_foldl_writeForm (names : (items.map Item.name).Nodup) {item : Item}
    (hitem : item ∈ items) : (items.foldl (writeForm strings) form).get? item.name =
      some (((form.get? item.name).getD { name := item.name }).write strings item) := by
  induction items generalizing form with
  | nil => cases hitem
  | cons first items ih =>
    rw [List.map_cons, List.nodup_cons] at names
    rw [List.foldl_cons]
    rcases List.mem_cons.1 hitem with rfl | hitem
    · rw [get?_foldl_writeForm_of_ne fun i hi h => names.1 (List.mem_map.2 ⟨i, hi, h.symm⟩),
        writeForm, Table.get?_insert, if_pos rfl]
    · have hne : item.name ≠ first.name := fun h => names.1 (List.mem_map.2 ⟨item, hitem, h⟩)
      rw [ih names.2 hitem, writeForm, Table.get?_insert, if_neg hne]

end WriteForm

namespace Extent

/-- The looks of the children of a captured object that is no map. -/
def form (extent : Extent) (s : State) (strings : String → Option String) (c : Capture) :
    Table Look :=
  (extent.items c.content).foldl (writeForm strings) (s.keptForm extent c)

/-- The captured children of a child of a map. -/
def pairItems (extent : Extent) (entry : Entry) : List Item :=
  [extent.keyItem entry, extent.valueItem entry]

theorem noPair_pairItems (extent : Extent) (entry : Entry) :
    ∀ item ∈ extent.pairItems entry, item.NoPair := by
  intro item hitem
  simp only [pairItems, List.mem_cons, List.not_mem_nil, or_false] at hitem
  rcases hitem with rfl | rfl
  · exact extent.noPair_keyItem entry
  · exact extent.noPair_valueItem entry

/-- The looks of the key and the value in a child of a map. -/
def parts (extent : Extent) (strings : String → Option String) (entry : Entry) : Table Look :=
  (extent.pairItems entry).foldl (writeForm strings) .empty

end Extent

theorem keys_writeForm (strings : String → Option String) (form : Table Look) (item : Item) :
    (writeForm strings form item).keys =
      if item.name ∈ form.keys then form.keys else form.keys ++ [item.name] :=
  Table.keys_insert ..

theorem keys_foldl_writeForm {strings : String → Option String} {items : List Item}
    {form : Table Look} (names : (form.keys ++ items.map Item.name).Nodup) :
    (items.foldl (writeForm strings) form).keys = form.keys ++ items.map Item.name := by
  induction items generalizing form with
  | nil => exact (List.append_nil _).symm
  | cons item items ih =>
    have hnew : item.name ∉ form.keys := fun h =>
      (List.nodup_append.1 names).2.2 _ h _ List.mem_cons_self rfl
    have hkeys : (writeForm strings form item).keys = form.keys ++ [item.name] :=
      (keys_writeForm strings form item).trans (if_neg hnew)
    have happend : form.keys ++ (item :: items).map Item.name =
        (writeForm strings form item).keys ++ items.map Item.name := by
      rw [hkeys, List.append_assoc]
      rfl
    rw [happend] at names ⊢
    exact ih names

theorem Extent.keys_parts (extent : Extent) (strings : String → Option String) (entry : Entry) :
    (extent.parts strings entry).keys = [pairKey, pairValue] := by
  have hne : pairValue ≠ pairKey := by decide
  have empty : (Table.empty : Table Look).keys = [] := rfl
  rw [parts, pairItems, List.foldl_cons, List.foldl_cons, List.foldl_nil, keys_writeForm,
    keys_writeForm, empty]
  simp [keyItem, valueItem, hne]

/-- The look of a child of a map. -/
def Look.pair (index : Nat) : Look where
  name := Slot.pairName index
  typeName := pairType
  expandable := true
  home := .own
  listed := true

namespace Overlay

variable {s : State} {o o' : Overlay} {b p x : BindingId} {c d : CollectionId} {l : Look}
  {form : Table Look} {extent : Extent} {capture : Capture}

/-! ## Collections -/

/-- **A collection has the children that are told of**, in this order and with these looks. -/
structure Depicts (s : State) (o : Overlay) (c : CollectionId) (form : Table Look) : Prop where
  keys : (o.state.store.collection c).keys = form.keys
  get? : ∀ name, Option.Rel (o.Fits s) ((o.state.store.collection c).get? name) (form.get? name)

theorem Depicts.exists_fits (h : o.Depicts s c form) {name : String} (hl : form.get? name = some l) :
    ∃ b, o.state.slot? (.field c name) = some b ∧ o.Fits s b l :=
  exists_of_rel (h.get? name) hl

/-- **A collection that a step spares is told of as before.** -/
theorem Spares.depicts {B : BindingId → Prop} {C : CollectionId → Prop} (h : o.Spares o' B C)
    (a : Above s o) (hd : o.Depicts s c form) (hc : o.state.store.HasCollection c) (hC : ¬ C c)
    (hB : ∀ {name b}, o.state.slot? (.field c name) = some b → ¬ B b)
    (fresh : ∀ {d}, C d → ¬ Houses s o.state .fresh d) : o'.Depicts s c form where
  keys := by rw [h.collection hc hC, hd.keys]
  get? name := by
    rw [h.collection hc hC]
    refine rel_imp (hd.get? name) fun b l hb _ f => ?_
    exact h.fits a.sound.orderly f (hB hb) fun hfresh hC => fresh hC (hfresh ▸ f.home)

/-! ## Single children -/

/-- A child gets its type, when one is told, and a captured value. -/
def fill (o : Overlay) (child : BindingId) (item : Item) : Overlay :=
  (item.typeName.elim o fun type => o.mapStore (·.setType child type)).assignSlot child item.value

theorem writeItem_eq (o : Overlay) (b : BindingId) (item : Item) :
    o.writeItem b item = (o.childOrCreate b item.name).2.fill (o.childOrCreate b item.name).1 item :=
  rfl

theorem spares_fill (hb : o.state.Inner b) (item : Item) :
    o.Spares (o.fill b item) (· = b) (fun _ => False) := by
  unfold fill
  cases item.typeName with
  | none => exact spares_assignSlot hb item.value
  | some type =>
    have typed := o.spares_setType b type
    exact typed.trans (spares_assignSlot (typed.touches.inner hb) item.value) (fun _ _ => id)
      fun _ _ => id

theorem fits_fill (a : Above s o) {item : Item} (hitem : item.NoPair)
    (placed : o.state.slot? (.field c item.name) = some b) (f : o.Fits s b l) :
    (o.fill b item).Fits s b (l.write o.strings.get? item) := by
  have inner := a.sound.orderly.inner placed fun _ => by simp
  unfold fill Look.write
  cases htype : item.typeName with
  | none => exact fits_assignSlot a inner f item.value
  | some type =>
    have typed : o.Move (o.mapStore (·.setType b type)) :=
      .type placed (.inr fun ⟨index, h⟩ =>
        hitem.elim (fun hnone => by simp [htype] at hnone) fun hname => hname index h)
    exact fits_assignSlot (a.move typed) (typed.touches.inner inner)
      (fits_setType a.sound.orderly f type) item.value

theorem spares_writeItem (a : Above s o) (hb : o.state.store.Has b) (item : Item) :
    o.Spares (o.writeItem b item)
      (fun x => o.state.slot? (.field (o.state.store.get b).children item.name) = some x)
      (· = (o.state.store.get b).children) := by
  obtain ⟨hchild, placed⟩ := leads_childOrCreate a.valid hb item.name
  have inner := hchild.valid.orderly.inner placed fun _ => by simp
  have made : o.Spares (o.childOrCreate b item.name).2
      (fun x => o.state.slot? (.field (o.state.store.get b).children item.name) = some x)
      (· = (o.state.store.get b).children) :=
    (spares_childOrCreate hb item.name).mono (fun _ _ => False.elim) fun _ _ => id
  refine made.trans (spares_fill inner item) (fun x hx hxb => ?_) fun _ _ => False.elim
  -- what was there and is written was a child before
  exact made.touches.field_of_has a.sound.orderly hx (hxb ▸ placed)

theorem Depicts.childOrCreate (a : Above s o) (hb : o.state.store.Has b)
    (hd : o.Depicts s (o.state.store.get b).children form) (name : String) :
    (o.childOrCreate b name).2.Fits s (o.childOrCreate b name).1
      ((form.get? name).getD { name }) := by
  cases hlook : form.get? name with
  | none => exact fits_childOrCreate a hb (eq_none_of_rel (hd.get? name) hlook)
  | some l =>
    obtain ⟨x, hx, f⟩ := hd.exists_fits hlook
    rw [childOrCreate_of_some hx]
    exact f

theorem depicts_writeItem (a : Above s o) (hb : o.state.store.Has b) {item : Item}
    (hitem : item.NoPair) (hd : o.Depicts s (o.state.store.get b).children form) :
    (o.writeItem b item).Depicts s (o.state.store.get b).children
      (writeForm o.strings.get? form item) := by
  obtain ⟨hchild, placed⟩ := leads_childOrCreate a.valid hb item.name
  have inner := hchild.valid.orderly.inner placed fun _ => by simp
  have hc := a.sound.hasCollection hb
  have made := spares_childOrCreate hb item.name
  have spares := spares_writeItem a hb item
  have filled := spares_fill inner item
  have after := fits_fill (a.leads hchild) hitem placed (hd.childOrCreate a hb item.name)
  rw [made.strings] at after
  have table := (filled.collection (made.touches.hasCollection hc) id).trans
    (collection_childOrCreate a.sound.orderly hb item.name)
  have placed' : ((o.writeItem b item).state.store.collection
      (o.state.store.get b).children).get? item.name = some (o.childOrCreate b item.name).1 := by
    rw [← placed]
    exact congrArg (·.get? item.name) (filled.collection (made.touches.hasCollection hc) id)
  constructor
  case keys =>
    rw [writeItem_eq, table, writeForm, Table.keys_insert]
    split
    · next hnone =>
      rw [Table.keys_insert, ← hd.keys]
      rfl
    · next hsome =>
      obtain ⟨x, hx⟩ := Option.ne_none_iff_exists'.1 hsome
      rw [← hd.keys]
      exact (if_pos (Table.mem_keys_iff.2 ⟨x, hx⟩)).symm
  case get? =>
    intro name
    rw [writeForm, Table.get?_insert]
    by_cases hname : name = item.name
    · rw [hname, if_pos rfl, placed']
      exact .some after
    · have other : ((o.writeItem b item).state.store.collection
          (o.state.store.get b).children).get? name =
            (o.state.store.collection (o.state.store.get b).children).get? name := by
        rw [writeItem_eq, table]
        split
        · rw [Table.get?_insert, if_neg hname]
          rfl
        · rfl
      rw [if_neg hname, other]
      refine rel_imp (hd.get? name) fun x l hx _ f => ?_
      refine spares.fits a.sound.orderly f (fun hx' => hname ?_) fun hfresh hC => ?_
      · cases a.sound.unique (x := .field _ name) hx hx'
        rfl
      · -- the collection has a child, so it is no fresh one
        have hempty := (hfresh ▸ f.home : Houses s o.state .fresh _).2
        rw [hC] at hempty
        rw [hempty] at hx
        cases hx

/-! ## Several children -/

theorem writeItems (a : Above s o) (hb : o.state.store.Has b)
    (apart : ∀ name, o.state.slot? (.field (o.state.store.get b).children name) ≠ some b)
    {items : List Item} (hitems : ∀ item ∈ items, item.NoPair)
    (hd : o.Depicts s (o.state.store.get b).children form) :
    o.Spares (items.foldl (·.writeItem b) o)
      (fun x => ∃ name, o.state.slot? (.field (o.state.store.get b).children name) = some x)
      (· = (o.state.store.get b).children) ∧
    (items.foldl (·.writeItem b) o).Depicts s (o.state.store.get b).children
      (items.foldl (writeForm o.strings.get?) form) := by
  induction items generalizing o form with
  | nil => exact ⟨.refl o, hd⟩
  | cons item items ih =>
    have hitem := hitems item List.mem_cons_self
    have first := spares_writeItem a hb item
    have same := first.get hb (apart item.name)
    have a' := a.leads (leads_writeItem a.valid hb hitem)
    have apart' : ∀ name, (o.writeItem b item).state.slot?
        (.field ((o.writeItem b item).state.store.get b).children name) ≠ some b := by
      intro name hx
      rw [same] at hx
      exact apart name (first.touches.field_of_has a.sound.orderly hb hx)
    have hd' := depicts_writeItem a hb hitem hd
    rw [← same] at hd'
    obtain ⟨rest, hrest⟩ := ih a' (first.touches.has hb) apart'
      (fun item h => hitems item (List.mem_cons_of_mem _ h)) hd'
    rw [same, first.strings] at hrest
    rw [same] at rest
    refine ⟨(first.mono (fun x _ hx => ⟨item.name, hx⟩) fun _ _ => id).trans rest ?_ fun _ _ => id,
      hrest⟩
    rintro x hx ⟨name, hfield⟩
    exact ⟨name, first.touches.field_of_has a.sound.orderly hx hfield⟩

/-! ## Maps -/

/-- A new collection may be taken for one of the binding's own. -/
theorem Fits.own (f : o.Fits s b l) (hfresh : l.home = .fresh) : o.Fits s b { l with home := .own } :=
  ⟨f.has, f.label, (hfresh ▸ f.home : Houses s o.state .fresh _).1, f.shown, f.listed, f.waits⟩

theorem fits_openPair (a : Above s o) (hb : o.state.store.Has b) {index : Nat}
    (missing : o.state.store.child? b (Slot.pairName index) = none) :
    o.Spares (o.openPair b index).2 (fun _ => False) (· = (o.state.store.get b).children) ∧
      (o.openPair b index).2.Fits s (o.openPair b index).1 { Look.pair index with home := .fresh } ∧
      (o.openPair b index).2.state.store.collection (o.state.store.get b).children =
        (o.state.store.children b).insert (Slot.pairName index) (o.openPair b index).1 := by
  have hfst : (o.openPair b index).1 = (o.state.store.create (Slot.pairName index) "" "").1 :=
    congrArg Prod.fst (o.state.store.childOrCreate_of_none b (Slot.pairName index) missing)
  have made := spares_childOrCreate hb (Slot.pairName index)
  have blank := fits_childOrCreate a hb missing
  have table := collection_childOrCreate a.sound.orderly hb (Slot.pairName index)
  have listed := spares_enlist blank.has
  refine ⟨made.trans listed (fun x hx h => ?_) fun _ _ => False.elim,
    fits_enlist (made.touches.orderly a.sound.orderly) blank, ?_⟩
  · -- what is listed is new
    exact o.state.store.not_has_create _ "" "" (hfst ▸ h ▸ hx)
  · refine (listed.collection (made.touches.hasCollection (a.sound.hasCollection hb)) id).trans ?_
    rw [table, if_pos missing]
    rfl

/-- **A child of a map is as it is told**, with its key and its value. -/
structure DepictsPair (s : State) (o : Overlay) (extent : Extent) (strings : String → Option String)
    (index : Nat) (entry : Entry) (p : BindingId) : Prop where
  fits : o.Fits s p (.pair index)
  parts : o.Depicts s (o.state.store.get p).children (extent.parts strings entry)

theorem writePair_eq_foldl (o : Overlay) (b : BindingId) (extent : Extent) (index : Nat)
    (entry : Entry) : o.writePair b extent.keyType extent.itemType index entry =
      (extent.pairItems entry).foldl (·.writeItem (o.openPair b index).1)
        (o.openPair b index).2 := by
  rw [writePair_eq, Extent.pairItems, List.foldl_cons, List.foldl_cons, List.foldl_nil]

theorem depicts_writePair (a : Above s o) (hb : o.state.store.Has b) (extent : Extent) (index : Nat)
    (entry : Entry) (missing : o.state.store.child? b (Slot.pairName index) = none) :
    o.Spares (o.writePair b extent.keyType extent.itemType index entry) (fun _ => False)
      (· = (o.state.store.get b).children) ∧
    ∃ p, (o.writePair b extent.keyType extent.itemType index entry).state.store.collection
        (o.state.store.get b).children =
          (o.state.store.children b).insert (Slot.pairName index) p ∧
      (o.writePair b extent.keyType extent.itemType index entry).DepictsPair s extent
        o.strings.get? index entry p := by
  obtain ⟨opened, blank, table⟩ := fits_openPair a hb missing
  obtain ⟨-, blank', -⟩ := fits_openPair a.self hb missing
  have a' := a.leads (leads_openPair a.valid hb index).1
  rw [writePair_eq_foldl]
  generalize (o.openPair b index).1 = p at *
  generalize (o.openPair b index).2 = o' at *
  have hempty : o'.state.store.collection (o'.state.store.get p).children = .empty := blank.home.2
  have hnew : ¬ o.state.store.HasCollection (o'.state.store.get p).children := blank'.home.1
  have childless : ∀ {name x}, o'.state.slot? (.field (o'.state.store.get p).children name) ≠
      some x := by
    intro name x hx
    change (o'.state.store.collection _).get? name = some x at hx
    rw [hempty] at hx
    cases hx
  have none : o'.Depicts s (o'.state.store.get p).children .empty :=
    ⟨by rw [hempty]; rfl, fun name => by rw [hempty]; exact .none⟩
  obtain ⟨filled, parts⟩ := writeItems a' blank.has (fun _ => childless)
    (extent.noPair_pairItems entry) none
  have hc := a.sound.hasCollection hb
  have hne : (o.state.store.get b).children ≠ (o'.state.store.get p).children := fun h =>
    hnew (h ▸ hc)
  have same := filled.get blank.has fun ⟨_, hx⟩ => childless hx
  refine ⟨opened.trans filled (fun x _ ⟨_, hx⟩ => childless hx) fun e he h => absurd (h ▸ he) hnew,
    p, ?_, ?_, ?_⟩
  · exact (filled.collection (opened.touches.hasCollection hc) hne).trans table
  · refine filled.fits a'.sound.orderly (blank.own rfl) (fun ⟨_, hx⟩ => childless hx) fun h => ?_
    cases h
  · rw [opened.strings] at parts
    rw [same]
    exact parts

theorem Spares.depictsPair {B : BindingId → Prop} {C : CollectionId → Prop} (h : o.Spares o' B C)
    (a : Above s o) {strings : String → Option String} {index : Nat} {entry : Entry}
    (hd : o.DepictsPair s extent strings index entry p) (hB : ∀ {x}, B x → s.store.Has x)
    (hp : ¬ s.store.Has p) (hC : ¬ C (o.state.store.get p).children)
    (fresh : ∀ {d}, C d → ¬ Houses s o.state .fresh d) :
    o'.DepictsPair s extent strings index entry p where
  fits := by
    refine h.fits a.sound.orderly hd.fits (mt hB hp) fun hfresh => ?_
    cases hfresh
  parts := by
    rw [h.get hd.fits.has (mt hB hp)]
    exact h.depicts a hd.parts (a.sound.hasCollection hd.fits.has) hC
      (fun hx => mt hB (a.not_has_of_field hd.fits.home hx)) fresh

/-- **A map is as it is told.** -/
structure DepictsMap (s : State) (o : Overlay) (c : CollectionId) (extent : Extent)
    (strings : String → Option String) (entries : List Entry) : Prop where
  keys : (o.state.store.collection c).keys = (List.range entries.length).map Slot.pairName
  pair : ∀ {index entry}, entries[index]? = some entry →
    ∃ p, o.state.slot? (.field c (Slot.pairName index)) = some p ∧
      o.DepictsPair s extent strings index entry p

/-- **One more entry of a map is written.** -/
theorem DepictsMap.writePair (a : Above s o) (hb : o.state.store.Has b)
    (new : ¬ s.store.HasCollection (o.state.store.get b).children) {entries : List Entry}
    (hmap : o.DepictsMap s (o.state.store.get b).children extent o.strings.get? entries)
    (entry : Entry) :
    o.Spares (o.writePair b extent.keyType extent.itemType entries.length entry)
      (fun _ => False) (· = (o.state.store.get b).children) ∧
    (o.writePair b extent.keyType extent.itemType entries.length entry).DepictsMap s
      (o.state.store.get b).children extent o.strings.get? (entries ++ [entry]) := by
  have absent : Slot.pairName entries.length ∉ (List.range entries.length).map Slot.pairName := by
    intro h
    obtain ⟨i, hi, heq⟩ := List.mem_map.1 h
    exact Nat.ne_of_lt (List.mem_range.1 hi) (Slot.pairName_inj heq)
  have missing : o.state.store.child? b (Slot.pairName entries.length) = none := by
    refine Option.eq_none_iff_forall_ne_some.2 fun x hx => absent ?_
    rw [← hmap.keys]
    exact Table.mem_keys_iff.2 ⟨x, hx⟩
  obtain ⟨spares, p, table, hp⟩ := depicts_writePair a hb extent entries.length entry missing
  have slots : ∀ name, (o.writePair b extent.keyType extent.itemType entries.length
      entry).state.slot? (.field (o.state.store.get b).children name) =
        if name = Slot.pairName entries.length then some p
        else o.state.slot? (.field (o.state.store.get b).children name) := fun name =>
    (congrArg (·.get? name) table).trans (Table.get?_insert ..)
  refine ⟨spares, ?_, fun {index entry'} h => ?_⟩
  · have keys : (o.state.store.children b).keys =
        (List.range entries.length).map Slot.pairName := hmap.keys
    rw [table, Table.keys_insert, keys, if_neg absent, List.length_append, List.length_singleton,
      List.range_succ, List.map_append]
    rfl
  by_cases hi : index < entries.length
  · -- a child that was written before
    rw [List.getElem?_append_left hi] at h
    obtain ⟨q, hq, hd⟩ := hmap.pair h
    have hne : Slot.pairName index ≠ Slot.pairName entries.length := fun h =>
      Nat.ne_of_lt hi (Slot.pairName_inj h)
    refine ⟨q, (slots _).trans ((if_neg hne).trans hq), ?_⟩
    refine spares.depictsPair a hd False.elim (a.not_has_of_field new hq) (fun hc => ?_) ?_
    · -- a key is no child of a map
      have hkeys := hd.parts.keys
      rw [hc, hmap.keys, Extent.keys_parts] at hkeys
      have hmem : pairKey ∈ (List.range entries.length).map Slot.pairName := by simp [hkeys]
      obtain ⟨i, -, heq⟩ := List.mem_map.1 hmem
      exact Slot.pairKey_ne_pairName i heq.symm
    · rintro d rfl hfresh
      change (o.state.store.collection _).get? _ = some q at hq
      rw [hfresh.2] at hq
      cases hq
  · -- the child that is written now
    rw [List.getElem?_append_right (Nat.le_of_not_lt hi), List.getElem?_singleton] at h
    split at h
    · next hindex =>
      cases h
      have heq : index = entries.length := by omega
      subst heq
      exact ⟨p, (slots _).trans (if_pos rfl), hp⟩
    · cases h

/-- **The entries of a map** are written into an empty collection. -/
theorem depicts_writePairs (a : Above s o) (hb : o.state.store.Has b)
    (new : ¬ s.store.HasCollection (o.state.store.get b).children)
    (empty : o.state.store.children b = .empty) (extent : Extent) (entries : List Entry) :
    o.Spares (entries.zipIdx.foldl
        (fun o e => o.writePair b extent.keyType extent.itemType e.2 e.1) o)
      (fun _ => False) (· = (o.state.store.get b).children) ∧
    (entries.zipIdx.foldl (fun o e => o.writePair b extent.keyType extent.itemType e.2 e.1)
      o).DepictsMap s (o.state.store.get b).children extent o.strings.get? entries := by
  induction entries using List.reverseRecOn with
  | nil =>
    refine ⟨.refl o, (congrArg Table.keys empty).trans rfl, fun {index entry} h => ?_⟩
    simp at h
  | append_singleton entries entry ih =>
    have leads : o.Leads (entries.zipIdx.foldl
        (fun o e => o.writePair b extent.keyType extent.itemType e.2 e.1) o) :=
      .foldl a.valid fun e _ h => leads_writePair h.valid (h.has hb) extent e.2 e.1
    rw [List.zipIdx_append, List.foldl_append, List.zipIdx_singleton, List.foldl_cons,
      List.foldl_nil, Nat.zero_add]
    obtain ⟨before, hmap⟩ := ih
    have a' := a.leads leads
    generalize entries.zipIdx.foldl
      (fun o e => o.writePair b extent.keyType extent.itemType e.2 e.1) o = o' at *
    have same := before.get hb id
    rw [← before.strings, ← same] at hmap ⊢
    rw [← same] at new before
    obtain ⟨now, hmap'⟩ := hmap.writePair a' (before.touches.has hb) new entry
    exact ⟨before.trans now (fun _ _ => id) fun _ _ => id, hmap'⟩

end Overlay

end Retrace
