import Mathlib.Data.List.Induction
import Retrace.Proofs.Overlay.Reports

/-!
# The outcome of an overlay

When only texts are still to come, every binding that can be reached is told of, and what is told of
it depends on nothing but the state below and the report of the snapshot.

* `Overlay.fits_captured`, `Overlay.fits_foldl_trigger`: captured variables and trigger variables.
* `Site`, `Overlay.At`: where the children of a binding are, in whatever collection.
* `Overlay.depicts_at`: children in the end.
* `Overlay.fits_entry`, `Overlay.fits_root`, `Overlay.fits_trigger`, `Overlay.fits_old`: bindings in
  their places in the end.
* **`Overlay.told_untold`**: all of this together.
-/

namespace Retrace

/-- The look of a trigger variable. -/
def Look.trigger (strings types : String → Option String) (x : Extent × Capture × String) : Look :=
  ({ name := x.2.2, typeName := x.1.typeName } : Look).hold strings types x.1 x.2.1

namespace Snapshot

variable {snapshot : Snapshot} {symbol : String} {x : Extent × Capture × String}

/-- The captured value that counts for a trigger variable: of several the last. -/
def trigger? (snapshot : Snapshot) (symbol : String) : Option (Extent × Capture × String) :=
  (snapshot.triggers.filter (·.2.2 = symbol)).getLast?

theorem split_of_trigger? (h : snapshot.trigger? symbol = some x) :
    ∃ before behind, snapshot.triggers = before ++ x :: behind ∧ x.2.2 = symbol ∧
      ∀ y ∈ behind, y.2.2 ≠ x.2.2 := by
  obtain ⟨others, hfilter⟩ := List.getLast?_eq_some_iff.1 h
  obtain ⟨first, rest, hsplit, -, hrest⟩ := List.filter_eq_append_iff.1 hfilter
  obtain ⟨passed, behind, rfl, -, hx, hbehind⟩ := List.filter_eq_cons_iff.1 hrest
  have hx : x.2.2 = symbol := of_decide_eq_true hx
  refine ⟨first ++ passed, behind, by rw [hsplit, List.append_assoc], hx, fun y hy => ?_⟩
  rw [hx]
  simpa using List.filter_eq_nil_iff.1 hbehind y hy

theorem mem_of_trigger? (h : snapshot.trigger? symbol = some x) : x ∈ snapshot.triggers := by
  obtain ⟨before, behind, hsplit, -⟩ := split_of_trigger? h
  rw [hsplit]
  exact List.mem_append_right _ List.mem_cons_self

theorem exists_trigger? (hx : x ∈ snapshot.triggers) :
    ∃ y, snapshot.trigger? x.2.2 = some y := by
  refine Option.ne_none_iff_exists'.1 fun hnone => ?_
  have hempty := List.getLast?_eq_none_iff.1 hnone
  exact List.filter_eq_nil_iff.1 hempty x hx (decide_eq_true rfl)

theorem trigger?_of_mem
    (single : ∀ x ∈ snapshot.triggers, ∀ y ∈ snapshot.triggers, x.2.2 = y.2.2 → x = y)
    (hx : x ∈ snapshot.triggers) : snapshot.trigger? x.2.2 = some x := by
  obtain ⟨y, hy⟩ := exists_trigger? hx
  obtain ⟨-, -, -, hname, -⟩ := split_of_trigger? hy
  rw [hy, single y (mem_of_trigger? hy) x hx hname]

end Snapshot

namespace Overlay

variable {s : State} {o o' : Overlay} {b : BindingId} {c : CollectionId} {l : Look}
  {snapshot : Snapshot}

/-! ## Variables -/

theorem types_linked (hs : s.Sound) (snapshot : Snapshot) :
    (linked s snapshot).types = (written s snapshot).types := by
  have a := above_written snapshot hs
  have h := (spares_linked snapshot hs).types a.forget.sound.orderly
    (fun he ⟨noted, hn, hb⟩ => ne_of_inner (a.pending noted hn) he hb)
    (references_linked s snapshot)
  exact h

theorem strings_linked (hs : s.Sound) (snapshot : Snapshot) :
    (linked s snapshot).strings = stringsOf snapshot :=
  (leads_linked hs snapshot).strings.trans (leads_written hs snapshot).strings

theorem strings_updated (hs : s.Sound) (snapshot : Snapshot) :
    (updated s snapshot).strings = stringsOf snapshot :=
  (leads_updated hs snapshot).strings.trans (strings_linked hs snapshot)

theorem types_updated (hs : s.Sound) (snapshot : Snapshot) :
    (updated s snapshot).types = (written s snapshot).types := by
  rw [updated, updateRoots_eq, types_updateRoots (above_linked snapshot hs), types_linked hs]

/-- **A captured variable**, when all variables are updated. -/
theorem fits_captured (hs : s.Sound)
    (roots : (snapshot.captured.filterMap (s.root? ·.2)).Nodup) {x : Extent × Capture}
    (hx : x ∈ snapshot.captured) (hroot : s.root? x.2 = some b)
    (f : (linked s snapshot).Fits s b l) :
    (updated s snapshot).Fits s b ((l.typed (some x.1.typeName)).hold
      snapshot.text? (written s snapshot).types x.1 x.2) := by
  obtain ⟨before, behind, hsplit⟩ := List.append_of_mem hx
  simp only [hsplit, List.filterMap_append, List.filterMap_cons, hroot, List.nodup_append,
    List.nodup_cons] at roots
  obtain ⟨-, ⟨hbehind, -⟩, hbefore⟩ := roots
  have a := above_linked snapshot hs
  have leads := leads_foldl_updateRoot a.valid before
  have spares := spares_updateRoots a before
  have a' := a.leads leads
  have f' := spares.fits a.sound.orderly f (fun ⟨y, hy, hb⟩ =>
    hbefore b (List.mem_filterMap.2 ⟨y, hy, hb⟩) b List.mem_cons_self rfl) fun _ => id
  have now := fits_updateRoot a' x.1 ((a'.rootOf?_eq x.2).trans hroot) f'
  have a'' := a'.leads (leads_updateRoot a'.valid x.1 x.2)
  have rest := (spares_updateRoots a'' behind).fits a''.sound.orderly now
    (fun ⟨y, hy, hb⟩ => hbehind (List.mem_filterMap.2 ⟨y, hy, hb⟩)) fun _ => id
  rw [types_updateRoots a, types_linked hs, spares.strings, strings_linked hs, get?_stringsOf]
    at rest
  rw [updated, updateRoots_eq, hsplit, List.foldl_append, List.foldl_cons]
  exact rest

/-! ## Trigger variables -/

theorem slot?_foldl_trigger (a : Above s o) (l : List (Extent × Capture × String)) {x : Slot}
    (hx : ∀ frame, o.state.top? = some frame → ∀ y ∈ l, x ≠ .globalVar frame.id y.2.2) :
    (l.foldl (fun o x => o.createTriggerGlobal x.1 x.2.1 x.2.2) o).state.slot? x =
      o.state.slot? x := by
  induction l using List.reverseRecOn with
  | nil => rfl
  | append_singleton l y ih =>
    have a' := a.leads (leads_foldl_trigger a.valid l)
    have top := ((spares_foldl_trigger a l).touches.sameFrames a.sound).top?
    have before := ih fun frame hframe z hz => hx frame hframe z (List.mem_append_left _ hz)
    rw [List.foldl_append, List.foldl_cons, List.foldl_nil]
    generalize l.foldl (fun o x => o.createTriggerGlobal x.1 x.2.1 x.2.2) o = o' at *
    obtain ⟨-, others, -⟩ := fits_createTriggerGlobal a' y.1 y.2.1 y.2.2
    refine (others x fun frame hframe => ?_).trans before
    exact hx frame (top ▸ hframe) y (List.mem_append_right _ (List.mem_singleton_self y))

/-- **Trigger variables**: of several values under one name the last counts. -/
theorem fits_foldl_trigger (a : Above s o) (before : List (Extent × Capture × String))
    {behind : List (Extent × Capture × String)} {x : Extent × Capture × String}
    (last : ∀ y ∈ behind, y.2.2 ≠ x.2.2) {frame : Frame} (top : o.state.top? = some frame)
    (active : (o.state.activations.get? frame.id).isSome) :
    let o' := (before ++ x :: behind).foldl (fun o x => o.createTriggerGlobal x.1 x.2.1 x.2.2) o
    ∃ b, o'.state.slot? (.globalVar frame.id x.2.2) = some b ∧
      o'.Fits s b (.trigger o.strings.get? o.types x) := by
  intro o'
  have spares := spares_foldl_trigger a before
  have types := types_foldl_trigger a before
  have a' := a.leads (leads_foldl_trigger a.valid before)
  have hsplit : o' = behind.foldl (fun o x => o.createTriggerGlobal x.1 x.2.1 x.2.2)
      ((before.foldl (fun o x => o.createTriggerGlobal x.1 x.2.1 x.2.2) o).createTriggerGlobal
        x.1 x.2.1 x.2.2) := by rw [← List.foldl_cons, ← List.foldl_append]
  generalize before.foldl (fun o x => o.createTriggerGlobal x.1 x.2.1 x.2.2) o = o₁ at *
  have frames := spares.touches.sameFrames a.sound
  obtain ⟨-, -, b, fits, placed⟩ := fits_createTriggerGlobal a' x.1 x.2.1 x.2.2
  have now := placed frame (frames.top?.trans top) ((frames.isSome_activation frame.id).trans active)
  have a'' := a'.leads (leads_createTriggerGlobal a'.valid x.1 x.2.1 x.2.2)
  rw [spares.strings, types] at fits
  rw [hsplit]
  refine ⟨b, ?_, (spares_foldl_trigger a'' behind).fits a''.sound.orderly fits id fun _ => id⟩
  refine (slot?_foldl_trigger a'' behind fun _ _ y hy h => ?_).trans now
  exact last y hy (Slot.globalVar.inj h).2.symm

end Overlay

/-! ## Looks in the end -/

namespace Look

variable {l : Look} {strings types : String → Option String}

theorem resolve_of_waits (h : l.waits = []) (types : String → Option String) :
    l.resolve types = l := by
  unfold resolve
  rw [h]
  exact congrArg (fun waits => { l with waits }) h.symm

theorem home_scalar (h : l.home ≠ .own) (text : String) : (l.scalar text).home ≠ .own := by
  unfold scalar
  dsimp only
  split
  · exact Home.noConfusion
  · exact h

theorem home_settle (h : l.home ≠ .own) (types : String → Option String) (address : String) :
    (l.settle types address).home ≠ .own := by
  unfold settle
  split
  · exact Home.noConfusion
  · exact home_scalar h address

theorem home_resolve (h : l.home ≠ .own) (types : String → Option String) :
    (l.resolve types).home ≠ .own := by
  unfold resolve
  generalize l.waits = waits
  have start : ({ l with waits := [] } : Look).home ≠ .own := h
  generalize ({ l with waits := [] } : Look) = l' at start ⊢
  induction waits generalizing l' with
  | nil => exact start
  | cons address waits ih => exact ih _ (home_settle start types address)

theorem home_write (h : l.home ≠ .own) (strings : String → Option String) (item : Item) :
    (l.write strings item).home ≠ .own := by
  have typed : (l.typed item.typeName).home ≠ .own := h
  unfold write assign
  split
  · exact home_scalar typed item.value.text
  · split
    · exact home_scalar typed _
    · exact typed

theorem home_hold (h : l.home ≠ .own) (strings types : String → Option String) (extent : Extent)
    (c : Capture) : (l.hold strings types extent c).home ≠ .own := by
  unfold hold
  split
  · exact home_scalar h _
  · split
    · split
      · exact home_scalar h _
      · exact Home.noConfusion
    · exact home_scalar h _

/-- The looks of the children of a map. -/
def pairs (n : Nat) : Table Look where
  entries := (List.range n).map fun index => (Slot.pairName index, pair index)
  nodup := by
    rw [List.map_map]
    exact List.nodup_range.map fun _ _ => Slot.pairName_inj

theorem keys_pairs (n : Nat) : (pairs n).keys = (List.range n).map Slot.pairName := by
  unfold pairs Table.keys
  rw [List.map_map]
  rfl

theorem get?_pairs {n : Nat} {name : String} :
    (pairs n).get? name = some l ↔ ∃ index < n, name = Slot.pairName index ∧ l = pair index := by
  rw [Table.get?_eq_some_iff]
  simp [pairs, eq_comm]

end Look

theorem home_foldl_writeForm {strings : String → Option String} {items : List Item}
    {form : Table Look} (h : ∀ {name l}, form.get? name = some l → l.home ≠ .own) :
    ∀ {name l}, (items.foldl (writeForm strings) form).get? name = some l → l.home ≠ .own := by
  induction items generalizing form with
  | nil => exact h
  | cons item items ih =>
    refine ih fun {name l} hl => ?_
    rw [writeForm, Table.get?_insert] at hl
    split at hl
    · cases hl
      refine Look.home_write ?_ strings item
      cases hf : form.get? item.name with
      | none => exact Home.noConfusion
      | some l => exact h hf
    · exact h hl

/-! ## Where children are -/

/-- Where the children of a binding are, in whatever collection. -/
inductive Site
  /-- They are in a collection of the state below. -/
  | kept (c : CollectionId)
  /-- There are none. -/
  | fresh
  /-- They are those of a captured object. -/
  | object (x : Extent × Capture)
  /-- They are the key and the value in the child of a captured map. -/
  | pair (x : Extent × Capture) (entry : Entry) (index : Nat)

namespace Site

/-- The looks of the children, when all objects are written. -/
def form (s : State) (r : Report) : Site → Table Look
  | kept c => (s.store.collection c).map s.look
  | fresh => .empty
  | object x =>
    match x.1.mapEntries? x.2.content with
    | some entries => Look.pairs entries.length
    | none => x.1.form s r.strings x.2
  | pair x entry _ => x.1.parts r.strings entry

/-- Only children of maps have collections of their own. -/
theorem home_form {s : State} {r : Report} {site : Site} {name : String} {l : Look}
    (h : (site.form s r).get? name = some l) : l.home ≠ .own ∨
      ∃ x entries index, site = .object x ∧ x.1.mapEntries? x.2.content = some entries ∧
        index < entries.length ∧ name = Slot.pairName index ∧ l = .pair index := by
  cases site with
  | kept c =>
    rw [form, Table.get?_map, Option.map_eq_some_iff] at h
    obtain ⟨b, -, rfl⟩ := h
    exact .inl Home.noConfusion
  | fresh => cases h
  | pair x entry index =>
    exact .inl (home_foldl_writeForm (fun h => by cases h) h)
  | object x =>
    unfold form at h
    dsimp only at h
    split at h
    · next entries hmap =>
      obtain ⟨index, hi, rfl, rfl⟩ := Look.get?_pairs.1 h
      exact .inr ⟨x, entries, index, rfl, hmap, hi, rfl, rfl⟩
    · refine .inl (home_foldl_writeForm (fun h => ?_) h)
      obtain ⟨b, rfl⟩ := State.get?_keptForm h
      exact Home.noConfusion

end Site

namespace Overlay

variable {s : State} {o o' : Overlay} {b : BindingId} {c : CollectionId} {l : Look}
  {snapshot : Snapshot} {r : Report} {form : Table Look}

/-- **A collection where the children are**, in an overlay of the state `s`. -/
inductive At (s : State) (r : Report) (o : Overlay) : Site → CollectionId → Prop
  | kept {c : CollectionId} (has : s.store.HasCollection c)
      (spared : ∀ x, r.objects x → ¬ s.Keeps x.2.address c) : At s r o (.kept c) c
  | fresh {c : CollectionId} (empty : o.state.store.collection c = .empty) : At s r o .fresh c
  | object {x : Extent × Capture} (captured : r.objects x) {entry : BindingId}
      (known : o.state.references.get? x.2.address = some entry) :
      At s r o (.object x) (o.state.store.get entry).children
  | pair {x : Extent × Capture} (captured : r.objects x) {entry : BindingId}
      (known : o.state.references.get? x.2.address = some entry) {entries : List Entry}
      (map : x.1.mapEntries? x.2.content = some entries) {e : Entry} {index : Nat}
      (he : entries[index]? = some e) {p : BindingId}
      (placed : o.state.slot? (.field (o.state.store.get entry).children (Slot.pairName index)) =
        some p) : At s r o (.pair x e index) (o.state.store.get p).children

/-! ## Told collections -/

theorem DepictsMap.depicts {extent : Extent} {strings : String → Option String}
    {entries : List Entry} (h : o.DepictsMap s c extent strings entries) :
    o.Depicts s c (Look.pairs entries.length) where
  keys := h.keys.trans (Look.keys_pairs _).symm
  get? name := by
    cases hl : (Look.pairs entries.length).get? name with
    | some l =>
      obtain ⟨index, hi, rfl, rfl⟩ := Look.get?_pairs.1 hl
      obtain ⟨p, hp, hd⟩ := h.pair (List.getElem?_eq_getElem hi)
      exact (congrArg (Option.Rel _ · _) hp).mpr (.some hd.fits)
    | none =>
      have absent : (o.state.store.collection c).get? name = none := by
        refine Option.eq_none_iff_forall_ne_some.2 fun x hx => ?_
        have hmem := Table.mem_keys_iff.2 ⟨x, hx⟩
        rw [h.keys, ← Look.keys_pairs] at hmem
        obtain ⟨l, hl'⟩ := Table.mem_keys_iff.1 hmem
        cases hl.symm.trans hl'
      rw [absent]
      exact .none

section Untold

variable (hs : s.Sound) (suits : snapshot.Suits s) (runningTrigger : Bool)
include hs

/-- What is told of a collection when the objects are written tells what it is in the end. -/
theorem depicts_untold (hd : (written s snapshot).Depicts s c form)
    (hc : (written s snapshot).state.store.HasCollection c) :
    (untold s snapshot runningTrigger).Depicts s c
      (form.map (·.resolve (written s snapshot).types)) where
  keys := by rw [collection_untold snapshot runningTrigger hs hc, hd.keys, Table.keys_map]
  get? name := by
    have h := hd.get? name
    have hx : ∀ {x}, ((written s snapshot).state.store.collection c).get? name = some x →
        ∀ y ∈ snapshot.captured, s.root? y.2 ≠ some x := fun hx y _ =>
      (above_written snapshot hs).not_root (x := .field c name) hx id y.2
    rw [collection_untold snapshot runningTrigger hs hc, Table.get?_map]
    revert h hx
    cases (form.get? name) <;>
      cases ((written s snapshot).state.store.collection c).get? name
    · exact fun _ _ => .none
    · exact fun h => by cases h
    · exact fun h => by cases h
    · rintro (f | _) noRoot
      exact .some (fits_untold snapshot runningTrigger hs f (noRoot rfl))

include suits

theorem fits_unowned (hb : s.store.Has b) (unowned : ∀ x ∈ snapshot.objects, ¬ s.Owns x.2.address b) :
    (written s snapshot).Fits s b (s.look b) := by
  obtain ⟨spares, -, -⟩ := depicted_written hs suits
  refine spares.fits hs.orderly (fits_start hs snapshot hb)
    (fun ⟨x, hx, howns⟩ => unowned x hx howns) fun h => ?_
  cases h

/-- **A binding that no captured object owns** and no symbol names stays as it was. -/
theorem fits_old (hb : s.store.Has b)
    (unowned : ∀ x ∈ snapshot.objects, ¬ s.Owns x.2.address b)
    (noRoot : ∀ x ∈ snapshot.captured, s.root? x.2 ≠ some b) :
    (untold s snapshot runningTrigger).Fits s b (s.look b) :=
  fits_untold snapshot runningTrigger hs (fits_unowned hs suits hb unowned) noRoot

/-- **Collections that belong to no captured object stay as they were.** -/
theorem depicts_kept (hc : s.store.HasCollection c)
    (spared : ∀ x ∈ snapshot.objects, ¬ s.Keeps x.2.address c) :
    (written s snapshot).Depicts s c ((s.store.collection c).map s.look) := by
  obtain ⟨spares, -, -⟩ := depicted_written hs suits
  have same := spares.collection hc fun ⟨x, hx, hkeeps⟩ => spared x hx hkeeps
  refine ⟨by rw [same, Table.keys_map]; rfl, fun name => ?_⟩
  rw [same, Table.get?_map]
  cases hx : (s.store.collection c).get? name with
  | none => exact (congrArg (Option.Rel _ · none) hx).mpr .none
  | some x =>
    have hfield : s.slot? (.field c name) = some x := hx
    refine (congrArg (Option.Rel _ · (some (s.look x))) hx).mpr (.some ?_)
    refine fits_unowned hs suits (hs.has hfield) fun y hy howns => ?_
    rcases howns.place hs hfield with heq | ⟨d, n, hkeeps, heq⟩
    · cases heq
    · cases heq
      exact spared y hy hkeeps

omit suits in
/-- A binding for which nothing waits, and which no symbol names, stays as it was written. -/
theorem get_untold (f : (written s snapshot).Fits s b l) (calm : l.waits = [])
    (noRoot : ∀ x ∈ snapshot.captured, s.root? x.2 ≠ some b) :
    (untold s snapshot runningTrigger).state.store.get b =
      (written s snapshot).state.store.get b := by
  refine (spares_behind snapshot runningTrigger hs).get f.has ?_
  rintro (⟨noted, hn, rfl⟩ | ⟨x, hx, hroot⟩)
  · have hmem := mem_waits hn
    rw [f.waits, calm] at hmem
    cases hmem
  · exact noRoot x hx hroot

/-- **Every collection is as it is told** in the end. -/
theorem depicts_at {site : Site} (h : At s (snapshot.report s runningTrigger)
    (untold s snapshot runningTrigger) site c) :
    (untold s snapshot runningTrigger).Depicts s c
      ((site.form s (snapshot.report s runningTrigger)).map
        (·.resolve (written s snapshot).types)) := by
  obtain ⟨spares, -, depicted⟩ := depicted_written hs suits
  have a := above_written snapshot hs
  -- the children of an object are in the same collection before and after
  have object : ∀ {x entry}, x ∈ snapshot.objects →
      (untold s snapshot runningTrigger).state.references.get? x.2.address = some entry →
      ((untold s snapshot runningTrigger).state.store.get entry).children =
          ((written s snapshot).state.store.get entry).children ∧
        (written s snapshot).DepictsObject s snapshot.text? x.1 x.2 entry := by
    intro x entry hx known
    rw [references_untold] at known
    obtain ⟨entry', hd⟩ := depicted x hx
    cases Option.some.inj (hd.known.symm.trans known)
    exact ⟨((touches_untold snapshot runningTrigger hs).entry a.sound.orderly known).2, hd⟩
  cases h with
  | kept has spared =>
    exact depicts_untold hs runningTrigger (depicts_kept hs suits has spared)
      (spares.touches.hasCollection has)
  | fresh empty =>
    exact ⟨by rw [empty]; rfl, fun name => by rw [empty]; exact .none⟩
  | @object x captured entry known =>
    obtain ⟨same, hd⟩ := object captured known
    rw [same]
    refine depicts_untold hs runningTrigger ?_ (a.sound.hasCollection hd.fits.has)
    have hcontents := hd.contents
    unfold Contents at hcontents
    unfold Site.form
    dsimp only
    revert hcontents
    cases x.1.mapEntries? x.2.content with
    | some entries => exact fun hmap => hmap.2.depicts
    | none => exact id
  | @pair x captured entry known entries map e index he p placed =>
    obtain ⟨same, hd⟩ := object captured known
    have hcontents := hd.contents
    unfold Contents at hcontents
    rw [map] at hcontents
    obtain ⟨q, hq, hpair⟩ := hcontents.2.pair he
    rw [same, field_untold snapshot runningTrigger hs hq] at placed
    obtain rfl := Option.some.inj placed
    -- nothing waits for the child of a map
    rw [get_untold hs runningTrigger hpair.fits rfl fun y _ => a.not_root hq id y.2]
    exact depicts_untold hs runningTrigger hpair.parts (a.sound.hasCollection hpair.fits.has)

/-! ## Told places -/

/-- **The binding of a captured object** is as it is told in the end. -/
theorem fits_entry {x : Extent × Capture} (hx : x ∈ snapshot.objects) : ∃ entry,
    (untold s snapshot runningTrigger).state.references.get? x.2.address = some entry ∧
      (untold s snapshot runningTrigger).Fits s entry (s.objectLook x.1 x.2) := by
  obtain ⟨-, -, depicted⟩ := depicted_written hs suits
  obtain ⟨entry, hd⟩ := depicted x hx
  have known := hd.known
  have f := fits_untold snapshot runningTrigger hs hd.fits fun y _ =>
    (above_written snapshot hs).not_root (x := .object x.2.address) known id y.2
  have calm : (s.objectLook x.1 x.2).waits = [] := by
    unfold State.objectLook
    cases s.references.get? x.2.address <;> rfl
  rw [Look.resolve_of_waits calm] at f
  exact ⟨entry, (congrArg (·.get? x.2.address)
    (references_untold s snapshot runningTrigger)).trans known, f⟩

/-- **A captured variable** is as it is told in the end. -/
theorem fits_root (roots : (snapshot.captured.filterMap (s.root? ·.2)).Nodup)
    {x : Extent × Capture} (hx : x ∈ snapshot.captured) (hroot : s.root? x.2 = some b) :
    (untold s snapshot runningTrigger).Fits s b
      (((s.look b).typed (some x.1.typeName)).hold snapshot.text?
        (written s snapshot).types x.1 x.2) := by
  obtain ⟨symbol, -, hsymbol⟩ := Option.bind_eq_some_iff.1 hroot
  obtain ⟨place, hvar, hplace⟩ := slot?_of_rootOf hsymbol
  -- objects own no variables
  have unowned : ∀ y ∈ snapshot.objects, ¬ s.Owns y.2.address b := by
    intro y _ howns
    rcases howns.place hs hplace with rfl | ⟨d, n, -, rfl⟩ <;> exact hvar
  have f := fits_unowned hs suits (hs.has hplace) unowned
  have linked := fits_resolvePending (above_written snapshot hs) f
  rw [Look.resolve_of_waits rfl] at linked
  have updated := fits_captured hs roots hx hroot linked
  exact (spares_untold snapshot runningTrigger hs).fits (above_updated snapshot hs).sound.orderly
    updated id fun _ => id

omit suits in
/-- **A trigger variable** is as it is told in the end. -/
theorem fits_trigger (framed : s.Framed) {frame : Frame} (top : s.top? = some frame)
    {symbol : String} {x : Extent × Capture × String} (hx : snapshot.trigger? symbol = some x) :
    ∃ b, (untold s snapshot true).state.slot? (.globalVar frame.id symbol) = some b ∧
      (untold s snapshot true).Fits s b
        (.trigger snapshot.text? (written s snapshot).types x) := by
  obtain ⟨before, behind, hsplit, rfl, last⟩ := Snapshot.split_of_trigger? hx
  have a := above_updated snapshot hs
  have frames := a.touches.sameFrames hs
  have active : ((updated s snapshot).state.activations.get? frame.id).isSome := by
    rw [frames.isSome_activation]
    exact Option.isSome_iff_exists.2
      (framed.exists_activation (List.mem_of_mem_head? (Option.mem_def.2 top)))
  have h := fits_foldl_trigger a before last (frames.top?.trans top) active
  dsimp only at h
  rwa [← hsplit, ← createTriggerGlobals_eq, strings_updated hs, types_updated hs,
    get?_stringsOf] at h

omit suits in
/-- **Other trigger variables** stay where they are. -/
theorem slot?_globalVar {frame : Nat} {name : String}
    (other : ∀ x ∈ snapshot.triggers, runningTrigger = true → ∀ top, s.top? = some top →
      Slot.globalVar frame name ≠ .globalVar top.id x.2.2) :
    (untold s snapshot runningTrigger).state.slot? (.globalVar frame name) =
      s.slot? (.globalVar frame name) := by
  have calls : (updated s snapshot).state.calls = s.calls := by
    rw [updated, calls_updateRoots, linked, calls_resolvePending, written, calls_refreshObjects]
    rfl
  have same : (updated s snapshot).state.slot? (.globalVar frame name) =
      s.slot? (.globalVar frame name) :=
    congrArg (fun calls => (calls.2.get? frame).bind (·.globals.get? name)) calls
  have top : (updated s snapshot).state.top? = s.top? := congrArg (·.1.head?) calls
  have a := above_updated snapshot hs
  unfold untold
  split
  · next running =>
    rw [createTriggerGlobals_eq, slot?_foldl_trigger a _ fun frame' hframe x hx => ?_, same]
    exact other x hx running frame' (top.symm.trans hframe)
  · exact same

end Untold

/-! ## All that is told -/

/-- **What is told of an overlay** when only texts are still to come. -/
structure Told (s : State) (r : Report) (o : Overlay) : Prop where
  above : Above s o
  paired : o.Paired
  /-- Objects that are not captured are known as before. -/
  known : ∀ {key}, (∀ x, r.objects x → key ≠ x.2.address) →
    o.state.references.get? key = s.references.get? key
  entry : ∀ {x}, r.objects x → ∃ entry, o.state.references.get? x.2.address = some entry ∧
    o.Fits s entry (s.objectLook x.1 x.2)
  root : ∀ {x b}, r.captured x → s.root? x.2 = some b →
    o.Fits s b (((s.look b).typed (some x.1.typeName)).hold r.strings r.types x.1 x.2)
  old : ∀ {b}, s.store.Has b → (∀ x, r.objects x → ¬ s.Owns x.2.address b) →
    (∀ x, r.captured x → s.root? x.2 ≠ some b) → o.Fits s b (s.look b)
  trigger : ∀ {frame x}, s.top? = some frame → r.triggers x →
    ∃ b, o.state.slot? (.globalVar frame.id x.2.2) = some b ∧
      o.Fits s b (.trigger r.strings r.types x)
  /-- Other trigger variables stay in their places. -/
  global : ∀ {frame name}, (∀ x, r.triggers x → ∀ top, s.top? = some top →
    Slot.globalVar frame name ≠ .globalVar top.id x.2.2) →
      o.state.slot? (.globalVar frame name) = s.slot? (.globalVar frame name)
  depicts : ∀ {site c}, At s r o site c → o.Depicts s c ((site.form s r).map (·.resolve r.types))

/-- **All this holds**, whatever the order in the snapshot. -/
theorem told_untold (h : s.WellFormed) (suits : snapshot.Suits s)
    (roots : (snapshot.captured.filterMap (s.root? ·.2)).Nodup)
    (single : ∀ x ∈ snapshot.triggers, ∀ y ∈ snapshot.triggers, x.2.2 = y.2.2 → x = y)
    (runningTrigger : Bool) :
    Told s (snapshot.report s runningTrigger) (untold s snapshot runningTrigger) where
  above := above_untold snapshot runningTrigger h.sound
  paired := paired_untold h.sound snapshot runningTrigger
  known {key} new := by
    rw [references_untold]
    exact (depicted_written h.sound suits).2.1 key new
  entry hx := fits_entry h.sound suits runningTrigger hx
  root hx hroot := fits_root h.sound suits runningTrigger roots hx hroot
  old hb unowned noRoot := fits_old h.sound suits runningTrigger hb unowned noRoot
  trigger {frame x} top hx := by
    obtain ⟨running, hx⟩ := hx
    rw [running]
    exact fits_trigger h.sound h.framed top (Snapshot.trigger?_of_mem single hx)
  global other := slot?_globalVar h.sound runningTrigger fun x hx running =>
    other x ⟨running, hx⟩
  depicts hat := depicts_at h.sound suits runningTrigger hat

end Overlay

end Retrace
