import Retrace.Proofs.Overlay.Outcome
import Retrace.Proofs.Replay.Runs

/-!
# Trigger variables under an overlay

A snapshot lists the context variables of a trigger among the symbols of truth values and of
collections. An extent is taken for one of them when its first value has a trigger variable for its
first symbol; then all its values count, and all their symbols.

* `Snapshot.mem_triggers_iff`: the values that count.
* `Overlay.known_written`: captured objects become known, however often an address is captured.
* `State.Shows`, `State.Collects`: a binding shows a captured value, and has the captured children.
* `Overlay.Fits.shows`, `Overlay.collects_object`: trigger variables do.
* **`Replay.shows_overlay`**: every trigger variable of such an extent is shown.
-/

namespace Retrace

namespace TypeName

variable {type : String}

theorem isPrimitive_of_isCollection (h : isCollection type = true) : isPrimitive type = false := by
  have names : ∀ name ∈ primitives, isCollection name = false ∧ Text.lower name = name := by decide
  refine decide_eq_false fun hmem => ?_
  obtain ⟨hname, hlower⟩ := names _ hmem
  unfold isCollection isListOrSet at h hname
  rw [hlower, h] at hname
  cases hname

theorem isPrimitive_of_isBoolean (h : isBoolean type = true) : isPrimitive type = true := by
  have hmem : "boolean" ∈ primitives := by decide
  exact decide_eq_true (of_decide_eq_true h ▸ hmem)

theorem isPrimitive_of_isString (h : isString type = true) : isPrimitive type = true := by
  have hmem : "string" ∈ primitives := by decide
  exact decide_eq_true (of_decide_eq_true h ▸ hmem)

theorem ne_empty_of_isCollection (h : isCollection type = true) : type ≠ "" := by
  rintro rfl
  exact absurd h (by decide)

theorem not_isString_of_isCollection (h : isCollection type = true) : ¬ isString type = true :=
  fun hstring => by
    have hprimitive := isPrimitive_of_isString hstring
    rw [isPrimitive_of_isCollection h] at hprimitive
    cases hprimitive

end TypeName

/-! ## Values that count -/

namespace Snapshot

variable {snapshot : Snapshot} {x : Extent × Capture × String}

theorem mem_triggers_iff : x ∈ snapshot.triggers ↔
    x.1 ∈ snapshot.extents ∧ x.1.tellsTriggers = true ∧ x.2.1 ∈ x.1.captures ∧
      x.2.2 ∈ x.2.1.symbols.getD [] ∧ Text.startsWith x.2.2 "Trigger." = true := by
  obtain ⟨extent, c, symbol⟩ := x
  simp only [triggers, List.mem_flatMap, List.mem_filter, List.mem_map, Prod.mk.injEq]
  constructor
  · rintro ⟨extent', ⟨he, htrigger⟩, c', hc, symbol', ⟨hs, hstarts⟩, rfl, rfl, rfl⟩
    exact ⟨he, htrigger, hc, hs, hstarts⟩
  · rintro ⟨he, htrigger, hc, hs, hstarts⟩
    exact ⟨extent, ⟨he, htrigger⟩, c, hc, symbol, ⟨hs, hstarts⟩, rfl, rfl, rfl⟩

theorem mem_objects_of_trigger (hx : x ∈ snapshot.triggers)
    (collection : TypeName.isCollection x.1.typeName = true) : (x.1, x.2.1) ∈ snapshot.objects := by
  obtain ⟨he, -, hc, -⟩ := mem_triggers_iff.1 hx
  refine List.mem_flatMap.2 ⟨x.1, List.mem_filter.2 ⟨he, ?_⟩, List.mem_map_of_mem hc⟩
  rw [TypeName.isPrimitive_of_isCollection collection]
  rfl

/-- No captured string is at the address of a captured object. -/
theorem text?_object {s : State} (suits : snapshot.Suits s) {x : Extent × Capture}
    (hx : x ∈ snapshot.objects) : snapshot.text? x.2.address = none := by
  refine Option.eq_none_iff_forall_ne_some.2 fun text htext => ?_
  have hmem := (text?_iff suits.distinct).1 htext
  simp only [texts, List.mem_flatMap, List.mem_filter, List.mem_map, Prod.mk.injEq] at hmem
  obtain ⟨extent, ⟨he, hstring⟩, c, hc, haddress, -⟩ := hmem
  have hcaptured : (extent, c) ∈ snapshot.captured :=
    List.mem_flatMap.2 ⟨extent, he, List.mem_map_of_mem hc⟩
  -- the string and the object would be one captured value
  have hsame : (extent, c) = x := List.inj_on_of_nodup_map suits.distinct hcaptured
    (snapshot.objects_sublist.mem hx) haddress
  obtain ⟨extent', hextent, hx⟩ := List.mem_flatMap.1 hx
  obtain ⟨c', -, rfl⟩ := List.mem_map.1 hx
  cases hsame
  have hobject := (List.mem_filter.1 hextent).2
  rw [TypeName.isPrimitive_of_isString hstring] at hobject
  cases hobject

end Snapshot

/-! ## Looks of trigger variables -/

namespace Look

variable {strings types : String → Option String} {x : Extent × Capture × String}

theorem trigger_of_string {text : String} (h : strings x.2.1.address = some text) :
    trigger strings types x = { name := x.2.2, typeName := x.1.typeName, value := text } := by
  unfold trigger hold
  rw [h]
  rfl

theorem trigger_of_boolean (boolean : TypeName.isBoolean x.1.typeName = true)
    (h : strings x.2.1.address = none) : trigger strings types x =
      { name := x.2.2, typeName := x.1.typeName, value := x.2.1.content.value.text } := by
  unfold trigger hold
  rw [h, TypeName.isPrimitive_of_isBoolean boolean]
  cases types x.2.1.address <;> rfl

theorem trigger_of_collection (collection : TypeName.isCollection x.1.typeName = true)
    (h : strings x.2.1.address = none) {type : String} (known : types x.2.1.address = some type) :
    trigger strings types x =
      { name := x.2.2
        typeName := x.1.typeName
        reference := some x.2.1.address
        expandable := true
        home := .object x.2.1.address
        shown := true } := by
  unfold trigger hold
  rw [h, known, TypeName.isPrimitive_of_isCollection collection]
  dsimp only [link]
  rw [if_neg (TypeName.ne_empty_of_isCollection collection), if_neg Bool.false_ne_true]

end Look

/-! ## Captured values that are shown -/

namespace State

/-- **A binding shows a captured value**: the captured string at its address; otherwise, when the
value is a collection, the known object at its address, with its children and its text; and
otherwise the text of the value. -/
structure Shows (t : State) (strings : String → Option String) (b : BindingId) (extent : Extent)
    (c : Capture) : Prop where
  string : ∀ {text}, strings c.address = some text →
    (t.store.get b).value = text ∧ (t.store.get b).reference = none
  collection : strings c.address = none → TypeName.isCollection extent.typeName = true →
    (t.store.get b).value = t.store.display b ∧ (t.store.get b).reference = some c.address ∧
      (t.store.get b).handle.isSome ∧ ∃ entry, t.references.get? c.address = some entry ∧
        (t.store.get b).children = (t.store.get entry).children
  plain : strings c.address = none → TypeName.isCollection extent.typeName = false →
    (t.store.get b).value = c.content.value.text ∧ (t.store.get b).reference = none

/-- **A binding has the captured children**: the elements of a list or a set, each under its place
and settled, or a child for every entry of a map, with a key and a value that are settled and by
which it is named and shown. -/
def Collects (t : State) (strings : String → Option String) (b : BindingId) (extent : Extent)
    (content : Content) : Prop :=
  match extent.mapEntries? content with
  | none => ∀ name v, extent.Lists content name v → ∃ child,
      t.store.child? b name = some child ∧ t.Settled strings child v
  | some entries => ∀ index e, entries[index]? = some e → ∃ pair key value,
      t.store.child? b (Slot.pairName index) = some pair ∧
        t.store.child? pair pairKey = some key ∧ t.Settled strings key (.string e.key) ∧
        t.store.child? pair pairValue = some value ∧ t.Settled strings value e.value ∧
        (t.store.get pair).name = (t.store.get key).value ∧
        (t.store.get pair).value = (t.store.get value).value

end State

/-- The names of the captured children of a collection. -/
def Content.childNames (content : Content) : List String :=
  match content.entries, content.value with
  | some entries, _ => (List.range entries.length).map Slot.pairName
  | none, .array elements => (List.range elements.length).map toString
  | none, _ => []

theorem Extent.names_items {extent : Extent} {content : Content}
    (collection : TypeName.isCollection extent.typeName = true) (list : content.entries = none) :
    (extent.items content).map Item.name = content.childNames := by
  have places : ∀ l : List Json,
      l.zipIdx.map (toString ∘ Prod.snd) = (List.range l.length).map toString := by
    intro l
    rw [List.range_eq_range', ← List.zipIdx_map_snd 0 l, List.map_map]
  unfold items Content.childNames Content.elements
  rw [if_pos collection, list, List.map_map]
  cases content.value with
  | array elements =>
    refine (places _).trans ?_
    rw [List.length_map]
  | _ => rfl

namespace Overlay

variable {s : State} {o : Overlay} {b : BindingId} {c : CollectionId} {l : Look}
  {snapshot : Snapshot}

/-- A captured object is known when the objects are written, whether its address is captured once
or more often. -/
theorem known_written (hs : s.Sound) {x : Extent × Capture} (hx : x ∈ snapshot.objects) :
    ∃ entry, (written s snapshot).state.references.get? x.2.address = some entry := by
  obtain ⟨before, behind, hsplit⟩ := List.append_of_mem hx
  obtain ⟨-, now, rest⟩ := Leads.foldl_split
    (f := fun o (y : Extent × Capture) => o.refreshObject y.1 y.2) (valid_start hs snapshot)
    (fun y _ h => leads_refreshObject h.valid y.1 y.2) hsplit
  rw [← refreshObjects_eq] at rest
  generalize before.foldl _ (start s snapshot) = o at now rest
  have known := (o.references_refreshObject x.1 x.2 x.2.address).trans (if_pos rfl)
  exact ⟨_, (rest.touches.entry now.valid.orderly known).1⟩

/-! ## Texts -/

theorem Fits.shows (hp : o.Paired) {strings types : String → Option String}
    {x : Extent × Capture × String}
    (kind : TypeName.isBoolean x.1.typeName = true ∨ TypeName.isCollection x.1.typeName = true)
    (known : TypeName.isCollection x.1.typeName = true → (types x.2.1.address).isSome)
    (f : o.Fits s b (.trigger strings types x)) :
    let t := o.refreshDisplays.namePairs.state
    (t.store.get b).name = x.2.2 ∧ (t.store.get b).typeName = x.1.typeName ∧
      t.Shows strings b x.1 x.2.1 := by
  intro t
  -- a plain value keeps its text
  have plain : ∀ {text}, o.Fits s b { name := x.2.2, typeName := x.1.typeName, value := text } →
      (t.store.get b).name = x.2.2 ∧ (t.store.get b).typeName = x.1.typeName ∧
        (t.store.get b).value = text ∧ (t.store.get b).reference = none := by
    intro text f
    have h := f.label_texts hp rfl
    rw [if_neg fun h => Bool.false_ne_true h.1] at h
    exact ⟨congrArg Label.name h, congrArg Label.typeName h, congrArg Label.value h,
      congrArg Label.reference h⟩
  cases hstring : strings x.2.1.address with
  | some text =>
    rw [Look.trigger_of_string hstring] at f
    obtain ⟨name, typeName, value⟩ := plain f
    have stands : ∀ {text'}, strings x.2.1.address = some text' → text = text' := fun h =>
      Option.some.inj (hstring.symm.trans h)
    refine ⟨name, typeName, fun h => stands h ▸ value, fun h _ => ?_, fun h _ => ?_⟩ <;>
      cases hstring.symm.trans h
  | none =>
    have noString : ∀ {text}, strings x.2.1.address ≠ some text := fun h => by
      cases hstring.symm.trans h
    cases collection : TypeName.isCollection x.1.typeName with
    | true =>
      obtain ⟨type, htype⟩ := Option.isSome_iff_exists.1 (known collection)
      rw [Look.trigger_of_collection collection hstring htype] at f
      obtain ⟨entry, he, hchildren⟩ := f.home
      have h := f.label_texts hp rfl
      rw [if_pos ⟨rfl, rfl, TypeName.not_isString_of_isCollection collection⟩] at h
      refine ⟨congrArg Label.name h, congrArg Label.typeName h, fun h => absurd h noString,
        fun _ _ => ⟨congrArg Label.value h, congrArg Label.reference h,
          congrArg Label.expandable h, entry, he, ?_⟩, fun _ other => ?_⟩
      · exact (children_texts hp b).trans (hchildren.trans (children_texts hp entry).symm)
      · cases collection.symm.trans other
    | false =>
      have boolean := kind.resolve_right fun h => by cases collection.symm.trans h
      rw [Look.trigger_of_boolean boolean hstring] at f
      obtain ⟨name, typeName, value⟩ := plain f
      refine ⟨name, typeName, fun h => absurd h noString, fun _ h => ?_, fun _ _ => value⟩
      cases collection.symm.trans h

/-! ## Children of captured collections -/

/-- **Children that are told of are settled** in the end. -/
theorem Depicts.settled {strings types : String → Option String} {items : List Item}
    {form : Table Look} (hp : o.Paired)
    (hd : o.Depicts s c ((items.foldl (writeForm strings) form).map (·.resolve types)))
    (calm : ∀ name, ((form.get? name).getD { name }).waits = [] ∧
      ((form.get? name).getD { name }).listed = false)
    (known : ∀ address, (types address).isSome = (o.state.references.get? address).isSome)
    (names : (items.map Item.name).Nodup) {item : Item} (hitem : item ∈ items) :
    ∃ child, o.state.slot? (.field c item.name) = some child ∧
      o.refreshDisplays.namePairs.state.Settled strings child item.value := by
  obtain ⟨child, hchild, f⟩ := hd.exists_fits
    ((Table.get?_map ..).trans (congrArg (Option.map _) (get?_foldl_writeForm names hitem)))
  obtain ⟨waits, unlisted⟩ := calm item.name
  refine ⟨child, hchild, f.settled hp ?_ known (Look.settled_write waits _ _ item)⟩
  rw [Look.listed_resolve, Look.listed_write, unlisted]

section Collections

variable (hs : s.Sound) (suits : snapshot.Suits s) (runningTrigger : Bool)
  {x : Extent × Capture} (hx : x ∈ snapshot.objects)
  (collection : TypeName.isCollection x.1.typeName = true) {entry : BindingId}
  (known : (untold s snapshot runningTrigger).state.references.get? x.2.address = some entry)
include hs suits hx collection known

/-- **A captured collection has the captured children** in the end, and so has every binding that
shares them. -/
theorem collects_object
    (shared : ((untold s snapshot runningTrigger).state.store.get b).children =
      ((untold s snapshot runningTrigger).state.store.get entry).children) :
    (untold s snapshot runningTrigger).refreshDisplays.namePairs.state.Collects
      snapshot.text? b x.1 x.2.content := by
  have hp := paired_untold hs snapshot runningTrigger
  have types : ∀ address, ((written s snapshot).types address).isSome =
      ((untold s snapshot runningTrigger).state.references.get? address).isSome := by
    intro address
    rw [references_untold]
    exact Option.isSome_map
  have object : At s (snapshot.report s runningTrigger) (untold s snapshot runningTrigger)
      (.object x) ((untold s snapshot runningTrigger).state.store.get b).children := by
    rw [shared]
    exact .object hx known
  have hd := depicts_at hs suits runningTrigger object
  unfold State.Collects
  unfold Site.form at hd
  dsimp only at hd
  cases hmap : x.1.mapEntries? x.2.content with
  | none =>
    rw [hmap] at hd
    intro name v hlists
    obtain ⟨item, hitem, rfl, rfl⟩ := hlists.exists_item
    have names : ((x.1.items x.2.content).map Item.name).Nodup := Extent.nodup_items fun h => by
      rw [collection] at h
      cases h
    obtain ⟨child, hchild, settled⟩ :=
      hd.settled hp (s.getD_keptForm x.1 x.2) types names hitem
    exact ⟨child, (child?_texts hp b item.name).trans hchild, settled⟩
  | some entries =>
    rw [hmap] at hd
    intro index e he
    have hindex := (List.getElem?_eq_some_iff.1 he).1
    obtain ⟨p, placed, f⟩ := hd.exists_fits ((Table.get?_map ..).trans
      (congrArg (Option.map _) (Look.get?_pairs.2 ⟨index, hindex, rfl, rfl⟩)))
    have hlabel := (get_texts hp).2.2 p
    rw [if_pos (f.listed.2 rfl)] at hlabel
    have parts := depicts_at hs suits runningTrigger
      (.pair hx known hmap he (shared ▸ placed))
    have names : ((x.1.pairItems e).map Item.name).Nodup := by
      have hne : pairKey ≠ pairValue := by decide
      simpa [Extent.pairItems, Extent.keyItem, Extent.valueItem] using hne
    have part : ∀ item ∈ x.1.pairItems e, ∃ child,
        (untold s snapshot runningTrigger).refreshDisplays.namePairs.state.store.child? p item.name =
          some child ∧ _ := fun item hitem => by
      obtain ⟨child, hchild, settled⟩ :=
        parts.settled hp (fun _ => ⟨rfl, rfl⟩) types names hitem
      exact ⟨child, (child?_texts hp p item.name).trans hchild, settled⟩
    obtain ⟨key, hkey, ofKey⟩ := part (x.1.keyItem e) List.mem_cons_self
    obtain ⟨value, hvalue, ofValue⟩ :=
      part (x.1.valueItem e) (List.mem_cons_of_mem _ List.mem_cons_self)
    refine ⟨p, key, value, (child?_texts hp b _).trans placed, hkey, ofKey, hvalue, ofValue,
      (congrArg Binding.name hlabel).trans ?_, (congrArg Binding.value hlabel).trans ?_⟩
    · dsimp only [Store.partText]
      rw [show pairKey = (x.1.keyItem e).name from rfl, hkey]
      rfl
    · dsimp only [Store.partText]
      rw [show pairValue = (x.1.valueItem e).name from rfl, hvalue]
      rfl

/-- It has no other children, unless it keeps those that it had. -/
theorem keys_object
    (shared : ((untold s snapshot runningTrigger).state.store.get b).children =
      ((untold s snapshot runningTrigger).state.store.get entry).children)
    (replaced : ({ state := s } : Overlay).merges x.1.typeName x.2.address = false) :
    ((untold s snapshot runningTrigger).refreshDisplays.namePairs.state.store.children b).keys =
      x.2.content.childNames := by
  have hp := paired_untold hs snapshot runningTrigger
  have hd := depicts_at hs suits runningTrigger (.object hx known)
  have table : (untold s snapshot runningTrigger).refreshDisplays.namePairs.state.store.children b =
      (untold s snapshot runningTrigger).state.store.collection
        ((untold s snapshot runningTrigger).state.store.get entry).children := by
    unfold Store.children Store.collection
    rw [children_texts hp, shared, (get_texts hp).1]
  rw [table, hd.keys, Table.keys_map]
  unfold Site.form
  dsimp only
  have hmap : x.1.mapEntries? x.2.content = x.2.content.entries := if_pos collection
  rw [hmap]
  cases hentries : x.2.content.entries with
  | some entries =>
    rw [Content.childNames, hentries]
    exact Look.keys_pairs _
  | none =>
    have names : ((x.1.items x.2.content).map Item.name).Nodup := Extent.nodup_items fun h => by
      rw [collection] at h
      cases h
    have kept : s.keptForm x.1 x.2 = .empty := by
      unfold State.keptForm
      rw [replaced]
      rfl
    have empty : (Table.empty : Table Look).keys = [] := rfl
    dsimp only
    rw [Extent.form, kept, keys_foldl_writeForm (by rwa [empty, List.nil_append]), empty,
      List.nil_append, Extent.names_items collection hentries]

end Collections

theorem merges_eq_false {type address : String}
    (replaced : ∀ activation, s.topActivation? = some activation →
      Text.contains activation.signature type = true → s.references.get? address = none) :
    ({ state := s } : Overlay).merges type address = false := by
  refine Bool.eq_false_iff.2 fun h => ?_
  obtain ⟨known, belongs⟩ := Bool.and_eq_true_iff.1 h
  obtain ⟨activation, ha, hcontains⟩ := (Option.any_eq_true _ _).1 belongs
  obtain ⟨entry, he⟩ := Option.isSome_iff_exists.1 known
  cases (replaced activation ha hcontains).symm.trans he

theorem shows_trigger (h : s.WellFormed) {frame : Frame} (top : s.top? = some frame)
    {symbol : String} {x : Extent × Capture × String} (hx : snapshot.trigger? symbol = some x) :
    let t := (untold s snapshot true).refreshDisplays.namePairs.state
    ∃ b, t.slot? (.globalVar frame.id symbol) = some b ∧
      (t.store.get b).name = symbol ∧ (t.store.get b).typeName = x.1.typeName ∧
      t.Shows snapshot.text? b x.1 x.2.1 ∧
      (snapshot.Suits s → TypeName.isCollection x.1.typeName = true →
        t.Collects snapshot.text? b x.1 x.2.1.content ∧
        ((∀ activation, s.topActivation? = some activation →
            Text.contains activation.signature x.1.typeName = true →
              s.references.get? x.2.1.address = none) →
          (t.store.children b).keys = x.2.1.content.childNames)) := by
  intro t
  obtain ⟨b, hb, f⟩ := fits_trigger h.sound h.framed top hx
  have hmem := Snapshot.mem_of_trigger? hx
  obtain ⟨-, -, -, rfl, -⟩ := Snapshot.split_of_trigger? hx
  have kind := (Bool.and_eq_true_iff.1 (Snapshot.mem_triggers_iff.1 hmem).2.1).1
  have object := Snapshot.mem_objects_of_trigger hmem
  have known : TypeName.isCollection x.1.typeName = true →
      ((written s snapshot).types x.2.1.address).isSome := fun collection => by
    obtain ⟨entry, he⟩ := known_written h.sound (object collection)
    rw [types, Option.isSome_map, he]
    rfl
  obtain ⟨name, typeName, shows⟩ :=
    f.shows (paired_untold h.sound snapshot true) (Bool.or_eq_true_iff.1 kind) known
  refine ⟨b, hb, name, typeName, shows, fun suits collection => ?_⟩
  obtain ⟨type, htype⟩ := Option.isSome_iff_exists.1 (known collection)
  rw [Look.trigger_of_collection collection
    (Snapshot.text?_object suits (object collection)) htype] at f
  obtain ⟨entry, he, shared⟩ := f.home
  have collects := collects_object h.sound suits true (object collection) collection he shared
  exact ⟨collects, fun replaced => keys_object h.sound suits true (object collection) collection he
    shared (merges_eq_false replaced)⟩

end Overlay

theorem State.globals_of_top {s : State} {frame : Frame} (top : s.top? = some frame)
    (name : String) :
    s.topActivation?.bind (·.globals.get? name) = s.slot? (.globalVar frame.id name) := by
  unfold State.topActivation? State.slot?
  rw [top]
  rfl

/-- **Trigger variables are shown.** In a well-formed state whose current call runs a trigger, let
any snapshot be written, and let an extent of truth values or collections be listed whose first
value has a trigger variable for its first symbol. Then every trigger variable among the symbols of
any of its values is a variable of the current call, of the type of the extent, and shows the value
that is captured for it, or the last of them where several are. When the snapshot suits the state, a
captured collection is shown with its children, and with no others unless it was known and the
current call belongs to its type. Other trigger variables are as before. -/
theorem Replay.shows_overlay {r : Replay} (h : r.state.WellFormed)
    (running : r.isRunningTrigger = true) (snapshot : Snapshot) :
    let t := r.state.overlay snapshot r.isRunningTrigger
    (∀ extent ∈ snapshot.extents, extent.tellsTriggers = true →
      ∀ c ∈ extent.captures, ∀ symbol ∈ c.symbols.getD [],
        Text.startsWith symbol "Trigger." = true →
        ∃ x b, snapshot.trigger? symbol = some x ∧
          t.topActivation?.bind (·.globals.get? symbol) = some b ∧
          (t.store.get b).name = symbol ∧ (t.store.get b).typeName = x.1.typeName ∧
          t.Shows snapshot.text? b x.1 x.2.1 ∧
          (snapshot.Suits r.state → TypeName.isCollection x.1.typeName = true →
            t.Collects snapshot.text? b x.1 x.2.1.content ∧
            ((∀ activation, r.state.topActivation? = some activation →
                Text.contains activation.signature x.1.typeName = true →
                  r.state.references.get? x.2.1.address = none) →
              (t.store.children b).keys = x.2.1.content.childNames))) ∧
      ∀ name, snapshot.trigger? name = none → t.topActivation?.bind (·.globals.get? name) =
        r.state.topActivation?.bind (·.globals.get? name) := by
  intro t
  obtain ⟨frame, top, -⟩ := (Option.any_eq_true _ _).1 running
  have ht : t = (Overlay.untold r.state snapshot true).refreshDisplays.namePairs.state := by
    show r.state.overlay snapshot r.isRunningTrigger = _
    rw [running]
    rfl
  have top' : t.top? = some frame :=
    (congrArg List.head? (r.state.stack_overlay snapshot r.isRunningTrigger)).trans top
  constructor
  · intro extent hextent htrigger c hc symbol hsymbol hstarts
    obtain ⟨x, hx⟩ := Snapshot.exists_trigger? (x := (extent, c, symbol))
      (Snapshot.mem_triggers_iff.2 ⟨hextent, htrigger, hc, hsymbol, hstarts⟩)
    obtain ⟨b, hb, shown⟩ := Overlay.shows_trigger h top hx
    rw [← ht] at hb shown
    exact ⟨x, b, hx, (State.globals_of_top top' symbol).trans hb, shown⟩
  · intro name hnone
    rw [State.globals_of_top top', State.globals_of_top top, ht]
    refine (Overlay.slot?_globalVar h.sound true fun x hx _ frame' _ heq => ?_)
    obtain ⟨y, hy⟩ := Snapshot.exists_trigger? hx
    rw [← (Slot.globalVar.inj heq).2, hnone] at hy
    cases hy

/-- A trigger runs. -/
def triggerLog : List String :=
  ["62.0 APEX_CODE,FINEST",
    "0|CODE_UNIT_STARTED|[EXTERNAL]|01q|T on A trigger event BeforeInsert|__sfdc_trigger/T",
    "0|STATEMENT_EXECUTE|[2]"]

/-- The sources of `triggerLog`. -/
def triggerSources : Resolver := fun signature =>
  if signature = "__sfdc_trigger/T" then some (.ofPath "T.trigger") else none

/-- Truth values of trigger variables, at any place among the symbols, and a list of an object; one
of the variables is captured twice. -/
def contextSnapshot : Snapshot where
  extents :=
    [{ typeName := "Boolean"
       captures :=
        [{ address := "0x1"
           symbols := some ["Trigger.isInsert", "flag", "Trigger.isBefore"]
           content := { value := .bool true } },
          { address := "0x2"
            symbols := some ["done", "Trigger.isInsert"]
            content := { value := .bool false } }] },
      { typeName := "List<A>"
        collectionType := some "A"
        captures :=
          [{ address := "0x3"
             symbols := some ["Trigger.new"]
             content := { value := .array [.object [("value", .string "0x4")]] } }] },
      { typeName := "A"
        captures :=
          [{ address := "0x4", content := { entries := some [⟨"y", .number "7"⟩] } }] }]

set_option maxRecDepth 100000 in
/-- Three variables are shown; of the values of one of them the last counts. The list has the object
for its only element. -/
theorem Replay.shows_contextSnapshot :
    let r := (fresh {} triggerSources triggerLog).performAll [.advance, .advance]
    let t := r.state.overlay contextSnapshot r.isRunningTrigger
    let global := fun name => t.topActivation?.bind (·.globals.get? name)
    r.isRunningTrigger = true ∧
      (∃ b, global "Trigger.isBefore" = some b ∧ (t.store.get b).typeName = "Boolean" ∧
        (t.store.get b).value = "true") ∧
      (∃ b, global "Trigger.isInsert" = some b ∧ (t.store.get b).typeName = "Boolean" ∧
        (t.store.get b).value = "false") ∧
      (∃ b first object, global "Trigger.new" = some b ∧ (t.store.get b).typeName = "List<A>" ∧
        (t.store.get b).reference = some "0x3" ∧ (t.store.children b).keys = ["0"] ∧
        t.store.child? b "0" = some first ∧ (t.store.get first).reference = some "0x4" ∧
        t.references.get? "0x4" = some object ∧
        (t.store.get first).children = (t.store.get object).children) ∧
      global "flag" = none := by
  intro r t global
  have h : r.state.WellFormed := ((wellFormed_fresh {} triggerSources triggerLog).run _).state
  obtain ⟨running, suits, unknown⟩ : r.isRunningTrigger = true ∧ contextSnapshot.Suits r.state ∧
      r.state.references.get? "0x3" = none := by decide +kernel
  obtain ⟨shown, others⟩ := Replay.shows_overlay h running contextSnapshot
  have booleans := shown _ List.mem_cons_self (by decide)
  have lists := shown _ (List.mem_cons_of_mem _ List.mem_cons_self) (by decide)
  obtain ⟨before, b, hbefore, hb, -, btype, bvalue, -⟩ :=
    booleans _ List.mem_cons_self "Trigger.isBefore" (by decide) (by decide)
  obtain ⟨insert, c, hinsert, hc, -, ctype, cvalue, -⟩ :=
    booleans _ List.mem_cons_self "Trigger.isInsert" (by decide) (by decide)
  obtain ⟨new, d, hnew, hd, -, dtype, dvalue, dchildren⟩ :=
    lists _ List.mem_cons_self "Trigger.new" (by decide) (by decide)
  -- the values that count
  cases Option.some.inj (hbefore.symm.trans rfl)
  cases Option.some.inj (hinsert.symm.trans rfl)
  cases Option.some.inj (hnew.symm.trans rfl)
  obtain ⟨collects, keys⟩ := dchildren suits rfl
  obtain ⟨first, hfirst, settled⟩ := collects (toString 0) _
    (.element rfl rfl (show [Json.object [("value", .string "0x4")]][0]? = some _ from rfl))
  obtain ⟨object, hobject⟩ : ∃ object, t.references.get? "0x4" = some object :=
    Option.isSome_iff_exists.1 (by decide +kernel)
  obtain ⟨reference, children, -⟩ := settled.object rfl (by decide) (by decide) hobject
  exact ⟨running, ⟨b, hb, btype, (bvalue.plain (by decide) (by decide)).1⟩,
    ⟨c, hc, ctype, (cvalue.plain (by decide) (by decide)).1⟩,
    ⟨d, first, object, hd, dtype, (dvalue.collection (by decide) rfl).2.1,
      keys fun _ _ _ => unknown, hfirst, reference, hobject, children⟩, others "flag" rfl⟩

/-- A trigger variable behind a value of another variable. -/
def lateSnapshot : Snapshot where
  extents :=
    [{ typeName := "Boolean"
       captures :=
        [{ address := "0x1", symbols := some ["flag"], content := { value := .bool true } },
          { address := "0x2"
            symbols := some ["Trigger.isInsert"]
            content := { value := .bool true } }] }]

set_option maxRecDepth 100000 in
/-- The first value of the extent decides: behind a value of another variable a trigger variable is
not shown. -/
theorem Replay.not_shows_lateSnapshot :
    let r := (fresh {} triggerSources triggerLog).performAll [.advance, .advance]
    let t := r.state.overlay lateSnapshot r.isRunningTrigger
    r.state.WellFormed ∧ r.isRunningTrigger = true ∧
      ¬ ∀ extent ∈ lateSnapshot.extents,
        (TypeName.isBoolean extent.typeName || TypeName.isCollection extent.typeName) = true →
        ∀ c ∈ extent.captures, ∀ symbol ∈ c.symbols.getD [],
          Text.startsWith symbol triggerVariable = true →
          (t.topActivation?.bind (·.globals.get? symbol)).isSome = true := by
  intro r t
  have h : r.state.WellFormed := ((wellFormed_fresh {} triggerSources triggerLog).run _).state
  have running : r.isRunningTrigger = true := by decide +kernel
  have hidden : (t.topActivation?.bind (·.globals.get? "Trigger.isInsert")).isSome = false := by
    decide +kernel
  refine ⟨h, running, fun shown => Bool.false_ne_true (hidden.symm.trans ?_)⟩
  exact shown _ List.mem_cons_self (by decide) _ (List.mem_cons_of_mem _ List.mem_cons_self) _
    List.mem_cons_self (by decide)

end Retrace
