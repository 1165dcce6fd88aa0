import Mathlib.Data.List.Nodup
import Retrace.Proofs.Overlay.Displays
import Retrace.Proofs.Overlay.Objects

/-!
# Children of captured objects under an overlay

An address in a captured child is settled when all objects are there: by a string, by a reference to
the object, or as plain text when nothing is known at the address. What the child was before does
not matter, nor whether the object at the address comes before or behind.

* `Overlay.types`, `Look.hold`: the types of the known objects, and the look of a captured variable.
* `Overlay.fits_resolvePending`, `Overlay.fits_updateRoot`, `Overlay.fits_createTriggerGlobal`: what
  the passes behind the objects make of looks.
* `Overlay.fits_untold`: children, when only texts are still to come.
* `Overlay.Fits.label_texts`: what a binding with a look shows in the end.
* **`State.settled_overlay`**: the captured children of an object that is no map.
-/

namespace Retrace

namespace State

variable {s : State} {b : BindingId} {name : String}

theorem slot?_insertGlobal_self {frame : Frame} (top : s.top? = some frame)
    (active : (s.activations.get? frame.id).isSome) :
    (s.insertGlobal name b).slot? (.globalVar frame.id name) = some b := by
  obtain ⟨activation, ha⟩ := Option.isSome_iff_exists.1 active
  unfold insertGlobal modifyTop slot?
  simp only [top, Handles.get?_update, ha, Option.map_some, if_true, Option.bind_some,
    Table.get?_insert]

theorem slot?_insertGlobal_of_ne {x : Slot}
    (h : ∀ frame, s.top? = some frame → x ≠ .globalVar frame.id name) :
    (s.insertGlobal name b).slot? x = s.slot? x := by
  unfold insertGlobal modifyTop
  split
  · rfl
  · next frame htop =>
    have hx := h frame htop
    cases x with
    | globalVar id n =>
      simp only [slot?, Handles.get?_update]
      cases s.activations.get? id with
      | none => rfl
      | some activation =>
        by_cases hid : id = frame.id
        · have hn : n ≠ name := fun hn => hx (by rw [hid, hn])
          simp [hid, Table.get?_insert, hn]
        · simp [hid]
    | localVar id n =>
      simp only [slot?, Handles.get?_update]
      cases s.activations.get? id with
      | none => rfl
      | some activation => by_cases hid : id = frame.id <;> simp [hid]
    | _ => rfl

/-- The variable that a captured value names first. -/
def root? (s : State) (c : Capture) : Option BindingId :=
  c.firstSymbol?.bind ({ state := s } : Overlay).rootOf?

end State

/-- The look of a captured variable, before strings and objects are looked up. -/
def Look.hold (l : Look) (strings types : String → Option String) (extent : Extent) (c : Capture) :
    Look :=
  match strings c.address with
  | some text => l.scalar text
  | none =>
    match types c.address with
    | some type =>
      if TypeName.isPrimitive extent.typeName then l.scalar c.content.value.text
      else l.link c.address type
    | none => l.scalar c.content.value.text

namespace Overlay

variable {s : State} {o o' : Overlay} {b : BindingId} {c : CollectionId} {l : Look}

/-! ## Known objects -/

/-- The types of the known objects. -/
def types (o : Overlay) (address : String) : Option String :=
  (o.state.references.get? address).map fun entry => (o.state.store.get entry).typeName

theorem Spares.types {B : BindingId → Prop} {C : CollectionId → Prop} (h : o.Spares o' B C)
    (ho : o.state.Orderly) (entries : ∀ {key entry}, o.state.references.get? key = some entry →
      ¬ B entry) (refers : o'.state.references = o.state.references) : o'.types = o.types := by
  funext address
  unfold Overlay.types
  rw [refers]
  cases he : o.state.references.get? address with
  | none => rfl
  | some entry =>
    rw [Option.map_some, Option.map_some, h.get (ho.has (x := .object address) he) (entries he)]

theorem ne_of_inner (inner : o.state.Inner b) {key : String} {entry : BindingId}
    (he : o.state.references.get? key = some entry) : ¬ entry = b := fun hb =>
  inner.noEntry key (hb ▸ he)

/-- **A pass spares** what its steps spare. -/
theorem spares_foldl {α : Type} {f : Overlay → α → Overlay} {l : List α}
    {B : α → BindingId → Prop} {C : CollectionId → Prop} (v : o.Valid)
    (leads : ∀ {o'} a, a ∈ l → o.Leads o' → o'.Leads (f o' a))
    (step : ∀ {o'} a, a ∈ l → o.Leads o' → o'.Spares (f o' a) (B a) C) :
    o.Spares (l.foldl f o) (fun b => ∃ a ∈ l, B a b) C := by
  suffices h : ∀ o', o.Leads o' → o'.Spares (l.foldl f o') (fun b => ∃ a ∈ l, B a b) C from
    h o (.refl v)
  induction l with
  | nil => exact fun o' _ => .refl o'
  | cons a l ih =>
    intro o' h
    have first := step a List.mem_cons_self h
    have rest := ih (fun c hc => leads c (List.mem_cons_of_mem _ hc))
      (fun c hc => step c (List.mem_cons_of_mem _ hc)) _ (h.trans (leads a List.mem_cons_self h))
    refine (first.mono (fun b _ hb => ⟨a, List.mem_cons_self, hb⟩) fun _ _ => id).trans rest ?_
      fun _ _ => id
    rintro b - ⟨c, hc, hb⟩
    exact ⟨c, List.mem_cons_of_mem _ hc, hb⟩

/-! ## Addresses that wait -/

theorem fits_resolve (a : Above s o) {noted : BindingId × String}
    (inner : o.state.Inner noted.1) (f : o.Fits s noted.1 l) :
    (o.resolve noted).Fits s noted.1 (l.settle o.types noted.2) := by
  unfold resolve Look.settle types
  cases he : o.state.references.get? noted.2 with
  | none => exact fits_setScalar a inner f noted.2
  | some entry => exact fits_link a.sound.orderly inner f he

theorem fits_foldl_resolve (a : Above s o) {l : Look} (pending : List (BindingId × String))
    (inner : ∀ noted ∈ pending, o.state.Inner noted.1) (f : o.Fits s b l) :
    (pending.foldl resolve o).Fits s b
      (((pending.filter (·.1 = b)).map Prod.snd).foldl (·.settle o.types ·) l) := by
  induction pending generalizing o l with
  | nil => exact f
  | cons noted pending ih =>
    have hnoted := inner noted List.mem_cons_self
    have leads := leads_resolve a.valid hnoted
    have spares := spares_resolve hnoted
    have htypes := spares.types a.sound.orderly (ne_of_inner hnoted) (o.references_resolve noted)
    have ih' := fun {l} f => ih (a.leads leads) (l := l)
      (fun x hx => leads.inner (inner x (List.mem_cons_of_mem _ hx))) f
    rw [htypes] at ih'
    rw [List.foldl_cons]
    by_cases h : noted.1 = b
    · subst h
      rw [List.filter_cons_of_pos (by simp), List.map_cons, List.foldl_cons]
      exact ih' (fits_resolve a hnoted f)
    · rw [List.filter_cons_of_neg (by simpa using h)]
      exact ih' (spares.fits a.sound.orderly f (Ne.symm h) fun _ => id)

theorem Above.forget (a : Above s o) : Above s { o with pending := [] } :=
  ⟨a.base, a.sound, a.touches, a.touched, a.pairs, fun _ h => absurd h List.not_mem_nil⟩

/-- **Addresses that waited are settled**, wherever the objects were listed. -/
theorem fits_resolvePending (a : Above s o) (f : o.Fits s b l) :
    o.resolvePending.Fits s b (l.resolve o.types) := by
  have a' := a.forget
  have f' : Fits s { o with pending := [] } b { l with waits := [] } :=
    ⟨f.has, f.label, f.home, f.shown, f.listed, rfl⟩
  have h := fits_foldl_resolve a' o.pending a.pending f'
  rw [resolvePending_eq]
  unfold Look.resolve
  rw [← f.waits]
  exact h

/-! ## Variables -/

theorem spares_writeRoot (inner : o.state.Inner b) (extent : Extent) (c : Capture) :
    o.Spares (o.writeRoot b extent c) (· = b) (fun _ => False) := by
  unfold writeRoot
  split
  · exact spares_setScalar inner _
  · split
    · next entry he =>
      split
      · exact spares_setScalar inner _
      · exact spares_link inner he
    · exact spares_setScalar inner _

theorem fits_writeRoot (a : Above s o) (inner : o.state.Inner b) (f : o.Fits s b l)
    (extent : Extent) (c : Capture) :
    (o.writeRoot b extent c).Fits s b (l.hold o.strings.get? o.types extent c) := by
  unfold writeRoot Look.hold types
  cases o.strings.get? c.address with
  | some text => exact fits_setScalar a inner f text
  | none =>
    cases he : o.state.references.get? c.address with
    | none => exact fits_setScalar a inner f c.content.value.text
    | some entry =>
      dsimp only [Option.map_some]
      split
      · exact fits_setScalar a inner f c.content.value.text
      · exact fits_link a.sound.orderly inner f he

theorem spares_updateRoot (a : Above s o) (extent : Extent) (c : Capture) :
    o.Spares (o.updateRoot extent c) (fun b => c.firstSymbol?.bind o.rootOf? = some b)
      (fun _ => False) := by
  unfold updateRoot
  split
  · exact .refl o
  · next b hb =>
    obtain ⟨symbol, -, hroot⟩ := Option.bind_eq_some_iff.1 hb
    have typed := o.spares_setType b extent.typeName
    have inner := typed.touches.inner (inner_of_rootOf a.valid hroot)
    refine (typed.trans (spares_writeRoot inner extent c) (fun _ _ => id) fun _ _ => id).mono
      (fun x _ hx => ?_) fun _ _ => id
    rw [hb, hx]

/-- **A captured variable** gets its type and its value. -/
theorem fits_updateRoot (a : Above s o) (extent : Extent) {c : Capture}
    (hb : c.firstSymbol?.bind o.rootOf? = some b) (f : o.Fits s b l) :
    (o.updateRoot extent c).Fits s b
      ((l.typed (some extent.typeName)).hold o.strings.get? o.types extent c) := by
  obtain ⟨symbol, -, hroot⟩ := Option.bind_eq_some_iff.1 hb
  obtain ⟨x, hvar, hx⟩ := slot?_of_rootOf hroot
  have inner := inner_of_rootOf a.valid hroot
  have typed := o.spares_setType b extent.typeName
  have move : o.Move (o.mapStore (·.setType b extent.typeName)) :=
    .type hx (.inr hvar.not_mayHoldPair)
  have a' := a.move move
  have h := fits_writeRoot a' (typed.touches.inner inner)
    (fits_setType a.sound.orderly f extent.typeName) extent c
  rw [typed.types a.sound.orderly (ne_of_inner inner) rfl] at h
  unfold updateRoot
  rw [hb]
  exact h

theorem Above.rootOf?_eq (a : Above s o) (c : Capture) :
    c.firstSymbol?.bind o.rootOf? = s.root? c := by
  have h : ∀ symbol, o.rootOf? symbol = ({ state := s } : Overlay).rootOf? symbol :=
    (a.touches.sameFrames a.base).rootOf?
  unfold State.root?
  rw [funext h]

theorem leads_foldl_updateRoot (v : o.Valid) (l : List (Extent × Capture)) :
    o.Leads (l.foldl (fun o x => o.updateRoot x.1 x.2) o) := by
  refine .foldl v fun x _ h => ?_
  exact leads_updateRoot h.valid x.1 x.2

theorem spares_updateRoots (a : Above s o) (l : List (Extent × Capture)) :
    o.Spares (l.foldl (fun o x => o.updateRoot x.1 x.2) o)
      (fun b => ∃ x ∈ l, s.root? x.2 = some b) (fun _ => False) := by
  refine spares_foldl (B := fun (x : Extent × Capture) b => s.root? x.2 = some b) a.valid
    (fun x _ h => ?_) fun x _ h => ?_
  · exact leads_updateRoot h.valid x.1 x.2
  · have a' := a.leads h
    rw [← a'.rootOf?_eq]
    exact spares_updateRoot a' x.1 x.2

theorem Above.not_root (a : Above s o) {x : Slot} (hx : o.state.slot? x = some b)
    (hvar : ¬ x.IsVariable) (c : Capture) : s.root? c ≠ some b := fun hroot => by
  rw [← a.rootOf?_eq] at hroot
  obtain ⟨symbol, -, hsymbol⟩ := Option.bind_eq_some_iff.1 hroot
  obtain ⟨y, hy, hb⟩ := slot?_of_rootOf hsymbol
  exact hvar (a.sound.unique hx hb ▸ hy)

theorem types_updateRoots (a : Above s o) (l : List (Extent × Capture)) :
    (l.foldl (fun o x => o.updateRoot x.1 x.2) o).types = o.types := by
  have step : ∀ (o : Overlay) (x : Extent × Capture),
      (o.updateRoot x.1 x.2).state.references = o.state.references :=
    fun o x => references_updateRoot o x.1 x.2
  refine (spares_updateRoots a l).types a.sound.orderly
    (fun {key entry} he ⟨x, _, hroot⟩ => ?_)
    (foldl_keeps (fun o : Overlay => o.state.references) step l o)
  exact a.not_root (x := .object key) he id x.2 hroot

/-! ## Trigger variables -/

theorem spares_create (o : Overlay) (name type value : String) :
    o.Spares (o.mapStore fun store => (store.create name type value).2) (fun _ => False)
      (fun _ => False) where
  touches := .single (.create name type value)
  strings := rfl
  get hb _ := Store.get_create_of_ne _ _ _ _ fun h =>
    o.state.store.not_has_create name type value (h ▸ hb)
  collection _ _ := o.state.store.collection_create name type value _
  shown _ _ := Iff.rfl
  listed _ _ := Iff.rfl
  waits _ _ := rfl

theorem fits_create (a : Above s o) (name type : String) :
    (o.mapStore fun store => (store.create name type "").2).Fits s
      (o.state.store.create name type "").1 { name, typeName := type } := by
  have hget := Store.get_create_self o.state.store name type ""
  obtain ⟨shown, listed, waits⟩ := a.unnoted (o.state.store.not_has_create name type "")
  refine ⟨(Store.has_create ..).2 (.inr rfl), congrArg Binding.label hget, ?_,
    iff_of_false shown Bool.false_ne_true, iff_of_false listed Bool.false_ne_true, waits⟩
  refine (congrArg (fun binding : Binding => Houses s _ .fresh binding.children) hget).mpr ?_
  refine ⟨a.not_hasCollection, (o.state.store.collection_create name type "" _).trans ?_⟩
  exact Store.collection_of_not_has _ (Nat.lt_irrefl _)

theorem spares_insertGlobal (has : o.state.store.Has b) (unplaced : ∀ x, o.state.slot? x ≠ some b)
    (name : String) :
    o.Spares (o.mapState (·.insertGlobal name b)) (fun _ => False) (fun _ => False) where
  touches := .single (.global has unplaced name)
  strings := rfl
  get _ _ := congrArg (Store.get · _) (State.store_insertGlobal _ name b)
  collection _ _ := congrArg (Store.collection · _) (State.store_insertGlobal _ name b)
  shown _ _ := by
    unfold targets mapState
    rw [references_insertGlobal]
  listed _ _ := Iff.rfl
  waits _ _ := rfl

/-- **A trigger variable** is new, and gets its type and its value. -/
theorem fits_createTriggerGlobal (a : Above s o) (extent : Extent) (c : Capture)
    (symbol : String) :
    o.Spares (o.createTriggerGlobal extent c symbol) (fun _ => False) (fun _ => False) ∧
    (∀ x, (∀ frame, o.state.top? = some frame → x ≠ .globalVar frame.id symbol) →
      (o.createTriggerGlobal extent c symbol).state.slot? x = o.state.slot? x) ∧
    ∃ b, (o.createTriggerGlobal extent c symbol).Fits s b
        (({ name := symbol, typeName := extent.typeName } : Look).hold o.strings.get? o.types
          extent c) ∧
      ∀ frame, o.state.top? = some frame → (o.state.activations.get? frame.id).isSome →
        (o.createTriggerGlobal extent c symbol).state.slot? (.globalVar frame.id symbol) =
          some b := by
  let b := (o.state.store.create symbol extent.typeName "").1
  let made := o.mapStore fun store => (store.create symbol extent.typeName "").2
  let written := made.writeRoot b extent c
  have spares : o.Spares made _ _ := o.spares_create symbol extent.typeName ""
  have a' : Above s made := a.move (.create symbol extent.typeName "")
  have unplaced : ∀ x, made.state.slot? x ≠ some b := by
    intro x h
    have hx : o.state.slot? x = some b := (o.state.slot?_create _ _ _ x).symm.trans h
    exact o.state.store.not_has_create _ _ _ (a.sound.has hx)
  have hb : made.state.store.Has b := (Store.has_create ..).2 (.inr rfl)
  have inner : made.state.Inner b := ⟨hb, fun key => unplaced (.object key)⟩
  have a'' : Above s written := a'.leads (leads_writeRoot a'.valid inner extent c)
  have held : made.Spares written _ _ := spares_writeRoot inner extent c
  have unplaced' : ∀ x, written.state.slot? x ≠ some b := fun x => by
    rw [slot?_writeRoot]
    exact unplaced x
  have put := spares_insertGlobal (held.touches.has hb) unplaced' symbol
  have fits : written.Fits s b _ := fits_writeRoot a' inner (fits_create a symbol extent.typeName)
    extent c
  have htypes : made.types = o.types := spares.types a.sound.orderly (fun _ => id) rfl
  rw [htypes] at fits
  have filled : o.Spares written (fun _ => False) (fun _ => False) :=
    spares.trans held (fun x hx h => o.state.store.not_has_create _ _ _ (h ▸ hx)) fun _ _ => id
  have frames := filled.touches.sameFrames a.sound
  have htop := frames.top?
  refine ⟨filled.trans put (fun _ _ => id) fun _ _ => id, fun x hx => ?_, b, ?_,
    fun frame hframe active => ?_⟩
  · refine (State.slot?_insertGlobal_of_ne fun frame h => hx frame (htop ▸ h)).trans ?_
    rw [slot?_writeRoot]
    exact o.state.slot?_create ..
  · exact put.fits a''.sound.orderly fits id fun _ => id
  · refine State.slot?_insertGlobal_self (htop.trans hframe) ?_
    exact (frames.isSome_activation frame.id).trans active

theorem leads_foldl_trigger (v : o.Valid) (l : List (Extent × Capture × String)) :
    o.Leads (l.foldl (fun o x => o.createTriggerGlobal x.1 x.2.1 x.2.2) o) := by
  refine .foldl v fun x _ h => ?_
  exact leads_createTriggerGlobal h.valid x.1 x.2.1 x.2.2

theorem spares_foldl_trigger (a : Above s o) (l : List (Extent × Capture × String)) :
    o.Spares (l.foldl (fun o x => o.createTriggerGlobal x.1 x.2.1 x.2.2) o) (fun _ => False)
      (fun _ => False) := by
  refine (spares_foldl (B := fun _ _ => False) a.valid (fun x _ h => ?_) fun x _ h => ?_).mono
    (fun _ _ ⟨_, _, h⟩ => h) fun _ _ => id
  · exact leads_createTriggerGlobal h.valid x.1 x.2.1 x.2.2
  · exact (fits_createTriggerGlobal (a.leads h) x.1 x.2.1 x.2.2).1

theorem types_foldl_trigger (a : Above s o) (l : List (Extent × Capture × String)) :
    (l.foldl (fun o x => o.createTriggerGlobal x.1 x.2.1 x.2.2) o).types = o.types := by
  have step : ∀ (o : Overlay) (x : Extent × Capture × String),
      (o.createTriggerGlobal x.1 x.2.1 x.2.2).state.references = o.state.references :=
    fun o x => references_createTriggerGlobal o x.1 x.2.1 x.2.2
  exact (spares_foldl_trigger a l).types a.sound.orderly (fun _ => id)
    (foldl_keeps (fun o : Overlay => o.state.references) step l o)

/-! ## All passes -/

theorem Leads.strings (h : o.Leads o') : o'.strings = o.strings := by
  refine h.moves.invariant (I := fun o' => o'.strings = o.strings) (fun m same => ?_) rfl
  refine Eq.trans ?_ same
  cases m with
  | @object _ c => exact (objectAt_notes _ c.address).2.2.2
  | _ => rfl

section Passes

variable (snapshot : Snapshot) (runningTrigger : Bool)

theorem above_written (hs : s.Sound) : Above s (written s snapshot) :=
  (Above.start hs snapshot).leads (leads_written hs snapshot)

theorem above_linked (hs : s.Sound) : Above s (linked s snapshot) :=
  (above_written snapshot hs).forget.leads (leads_linked hs snapshot)

theorem above_updated (hs : s.Sound) : Above s (updated s snapshot) :=
  (above_linked snapshot hs).leads (leads_updated hs snapshot)

theorem above_untold (hs : s.Sound) : Above s (untold s snapshot runningTrigger) :=
  (above_updated snapshot hs).leads (leads_untold hs snapshot runningTrigger)

theorem spares_linked (hs : s.Sound) :
    Spares { written s snapshot with pending := [] } (linked s snapshot)
      (fun b => ∃ noted ∈ (written s snapshot).pending, b = noted.1) (fun _ => False) := by
  have a := above_written snapshot hs
  rw [linked, resolvePending_eq]
  refine spares_foldl a.forget.valid (fun noted hn h => ?_) fun noted hn h => ?_
  · exact leads_resolve h.valid (h.inner (a.pending noted hn))
  · exact spares_resolve (h.inner (a.pending noted hn))

theorem spares_updated (hs : s.Sound) :
    (linked s snapshot).Spares (updated s snapshot)
      (fun b => ∃ x ∈ snapshot.captured, s.root? x.2 = some b) (fun _ => False) := by
  rw [updated, updateRoots_eq]
  exact spares_updateRoots (above_linked snapshot hs) snapshot.captured

theorem spares_untold (hs : s.Sound) :
    (updated s snapshot).Spares (untold s snapshot runningTrigger) (fun _ => False)
      (fun _ => False) := by
  unfold untold
  split
  · rw [createTriggerGlobals_eq]
    exact spares_foldl_trigger (above_updated snapshot hs) snapshot.triggers
  · exact .refl _

theorem touches_untold (hs : s.Sound) :
    (written s snapshot).state.Touches (untold s snapshot runningTrigger).state :=
  (leads_linked hs snapshot).touches.trans
    ((leads_updated hs snapshot).trans (leads_untold hs snapshot runningTrigger)).touches

/-- **The passes behind the objects** change what waits and captured variables. -/
theorem spares_behind (hs : s.Sound) :
    Spares { written s snapshot with pending := [] } (untold s snapshot runningTrigger)
      (fun b => (∃ noted ∈ (written s snapshot).pending, b = noted.1) ∨
        ∃ x ∈ snapshot.captured, s.root? x.2 = some b) (fun _ => False) := by
  have after := (spares_updated snapshot hs).trans (spares_untold snapshot runningTrigger hs)
    (fun _ _ => False.elim) fun _ _ => id
  refine Spares.trans (B := fun b => _ ∨ _) ?_ after (fun _ _ => .inr) fun _ _ => id
  exact (spares_linked snapshot hs).mono (fun _ _ => .inl) fun _ _ => id

/-- **A binding that is no captured variable**, when only texts are still to come. -/
theorem fits_untold (hs : s.Sound) (f : (written s snapshot).Fits s b l)
    (noRoot : ∀ x ∈ snapshot.captured, s.root? x.2 ≠ some b) :
    (untold s snapshot runningTrigger).Fits s b (l.resolve (written s snapshot).types) := by
  have behind := (spares_updated snapshot hs).trans (spares_untold snapshot runningTrigger hs)
    (fun _ _ => False.elim) fun _ _ => id
  exact behind.fits (above_linked snapshot hs).sound.orderly
    (fits_resolvePending (above_written snapshot hs) f) (fun ⟨x, hx, hroot⟩ => noRoot x hx hroot)
    fun _ => id

theorem collection_untold (hs : s.Sound) (hc : (written s snapshot).state.store.HasCollection c) :
    (untold s snapshot runningTrigger).state.store.collection c =
      (written s snapshot).state.store.collection c :=
  (spares_behind snapshot runningTrigger hs).collection hc id

theorem field_untold (hs : s.Sound) {name : String}
    (hx : (written s snapshot).state.slot? (.field c name) = some b) :
    (untold s snapshot runningTrigger).state.slot? (.field c name) = some b := by
  have hc : (written s snapshot).state.store.HasCollection c := by
    by_contra hn
    change ((written s snapshot).state.store.collection c).get? name = some b at hx
    rw [Store.collection_of_not_has _ hn] at hx
    cases hx
  exact (congrArg (·.get? name) (collection_untold snapshot runningTrigger hs hc)).trans hx

end Passes

end Overlay

/-! ## Captured children -/

namespace Look

variable {l : Look} {strings types : String → Option String} {v : Json}

/-- A look as the captured value tells it: the text, the string at the address, a reference to the
object at the address, or the address itself. -/
def Settled (l : Look) (strings types : String → Option String) (v : Json) : Prop :=
  match v.asString?.filter isAddress with
  | none => l.value = v.text ∧ l.reference = none
  | some address =>
    match strings address with
    | some text => l.value = text ∧ l.reference = none
    | none =>
      match types address with
      | some _ => l.reference = some address ∧ l.home = .object address ∧ l.expandable = true
      | none => l.value = address ∧ l.reference = none

/-- **A captured child is settled** when the addresses that wait are looked up. -/
theorem settled_write (h : l.waits = []) (strings types : String → Option String) (item : Item) :
    ((l.write strings item).resolve types).Settled strings types item.value := by
  unfold Settled write assign
  cases item.value.asString?.filter isAddress with
  | none => simp [resolve, scalar, typed, h]
  | some address =>
    dsimp only
    cases strings address with
    | some text => simp [resolve, scalar, typed, h]
    | none =>
      cases htype : types address with
      | some type => simp [resolve, note, typed, h, settle, htype, link]
      | none => simp [resolve, note, typed, h, settle, htype, scalar]

theorem listed_write (l : Look) (strings : String → Option String) (item : Item) :
    (l.write strings item).listed = l.listed := by
  unfold write assign
  split
  · rfl
  · split <;> rfl

theorem listed_resolve (l : Look) (types : String → Option String) :
    (l.resolve types).listed = l.listed := by
  have settle : ∀ (l : Look) address, (l.settle types address).listed = l.listed := by
    intro l address
    unfold Look.settle
    split <;> rfl
  exact foldl_keeps Look.listed settle l.waits { l with waits := [] }

end Look

namespace Json

variable {v : Json} {address : String}

theorem filter_isAddress_of_forall
    (noAddress : ∀ address, v = .string address → Text.startsWith address "0x" = false) :
    v.asString?.filter isAddress = none := by
  cases v with
  | string text => simpa [asString?, isAddress] using noAddress text rfl
  | _ => rfl

theorem filter_isAddress_string (h : Text.startsWith address "0x" = true) :
    (Json.string address).asString?.filter isAddress = some address := by
  simp [asString?, Option.filter, isAddress, h]

end Json

/-- **A captured child is settled**: it shows the text of the value when this is no address, and the
string or the object at the address when something is known there. -/
structure State.Settled (t : State) (strings : String → Option String) (b : BindingId) (v : Json) :
    Prop where
  text : (∀ address, v = .string address → Text.startsWith address "0x" = false) →
    (t.store.get b).value = v.text ∧ (t.store.get b).reference = none
  /-- A string stands for its address. -/
  string : ∀ {address text}, v = .string address → Text.startsWith address "0x" = true →
    strings address = some text → (t.store.get b).value = text ∧ (t.store.get b).reference = none
  /-- A child with the address of a known object is an alias of it. -/
  object : ∀ {address entry}, v = .string address → Text.startsWith address "0x" = true →
    strings address = none → t.references.get? address = some entry →
      (t.store.get b).reference = some address ∧
        (t.store.get b).children = (t.store.get entry).children ∧ (t.store.get b).handle.isSome
  unknown : ∀ {address}, v = .string address → Text.startsWith address "0x" = true →
    strings address = none → t.references.get? address = none →
      (t.store.get b).value = address ∧ (t.store.get b).reference = none

namespace Overlay

variable {s : State} {o : Overlay} {b : BindingId} {l : Look}

/-- **What a binding with a look shows in the end**, when it is no child of a map. -/
theorem Fits.label_texts (hp : o.Paired) (f : o.Fits s b l) (listed : l.listed = false) :
    (o.refreshDisplays.namePairs.state.store.get b).label =
      if l.shown = true ∧ l.reference.isSome = true ∧ ¬ TypeName.isString l.typeName = true then
        { l.toLabel with value := o.refreshDisplays.namePairs.state.store.display b }
      else l.toLabel := by
  have hget := (get_texts hp).2.2 b
  have htype : (o.state.store.get b).typeName = l.typeName := congrArg Label.typeName f.label
  have hreference : (o.state.store.get b).reference = l.reference :=
    congrArg Label.reference f.label
  rw [if_neg fun h => Bool.false_ne_true (listed.symm.trans (f.listed.1 h))] at hget
  simp only [f.shown, Store.IsObject, htype, hreference] at hget
  rw [hget, ← f.label]
  split <;> rfl

/-- A child that is settled stays so when the texts are written. -/
theorem Fits.settled (hp : o.Paired) (f : o.Fits s b l) (listed : l.listed = false)
    {strings types : String → Option String}
    (known : ∀ address, (types address).isSome = (o.state.references.get? address).isSome)
    {v : Json} (hl : l.Settled strings types v) :
    o.refreshDisplays.namePairs.state.Settled strings b v := by
  let t := o.refreshDisplays.namePairs.state
  have children : ∀ c, (t.store.get c).children = (o.state.store.get c).children :=
    children_texts hp
  have label := f.label_texts hp listed
  have reference : (t.store.get b).reference = l.reference := by
    refine (congrArg Label.reference label).trans ?_
    split <;> rfl
  have handle : (t.store.get b).handle.isSome = l.expandable := by
    refine (congrArg Label.expandable label).trans ?_
    split <;> rfl
  -- what is no object keeps its text
  have plain : ∀ {text}, l.value = text ∧ l.reference = none →
      (t.store.get b).value = text ∧ (t.store.get b).reference = none := by
    rintro text ⟨hvalue, hnone⟩
    rw [if_neg fun h => by simp [hnone] at h] at label
    exact ⟨(congrArg Label.value label).trans hvalue, reference.trans hnone⟩
  unfold Look.Settled at hl
  refine ⟨fun noAddress => ?_, ?_, ?_, ?_⟩
  · rw [Json.filter_isAddress_of_forall noAddress] at hl
    exact plain hl
  · rintro address text rfl starts captured
    simp only [Json.filter_isAddress_string starts, captured] at hl
    exact plain hl
  · rintro address entry rfl starts uncaptured hentry
    have hentry : o.state.references.get? address = some entry := hentry
    obtain ⟨type, htype⟩ := Option.isSome_iff_exists.1
      ((known address).trans (Option.isSome_of_eq_some hentry))
    simp only [Json.filter_isAddress_string starts, uncaptured, htype] at hl
    obtain ⟨hreference, hhome, hexpandable⟩ := hl
    obtain ⟨entry', he, hchildren⟩ := (hhome ▸ f.home : Houses s o.state (.object address) _)
    cases hentry.symm.trans he
    exact ⟨reference.trans hreference, (children b).trans (hchildren.trans (children entry).symm),
      handle.trans hexpandable⟩
  · rintro address rfl starts uncaptured hnone
    have hnone : o.state.references.get? address = none := hnone
    have htype : types address = none := by
      rw [← Option.isNone_iff_eq_none, ← Option.isSome_eq_false_iff, known, hnone]
      rfl
    simp only [Json.filter_isAddress_string starts, uncaptured, htype] at hl
    exact plain hl

end Overlay

/-- The names of elements are different, as those of fields are when no field is captured twice. -/
theorem Extent.nodup_items {extent : Extent} {content : Content}
    (fields : TypeName.isCollection extent.typeName = false →
      ((content.entries.getD []).map Entry.key).Nodup) :
    ((extent.items content).map Item.name).Nodup := by
  unfold items
  split
  · rw [List.map_map, show (Item.name ∘ fun (e : Json × Nat) =>
      (⟨toString e.2, some extent.itemType, e.1⟩ : Item)) = toString ∘ Prod.snd from rfl,
      ← List.map_map, List.zipIdx_map_snd]
    exact (List.nodup_range' ..).map fun _ _ => Slot.toString_inj
  · next h =>
    rw [List.map_map]
    exact fields (Bool.not_eq_true _ ▸ h)

/-- **Captured children are settled.** In a well-formed state whose objects have their children in
different collections, let a snapshot be written that captures no address twice, no field twice in
one object, and no known object as a map. Then an object that is captured, and is no map, is known,
and each of its captured children is there and shows what was captured: a value that is no address
as text; an address of a captured string as the string; an address of a known object, wherever the
snapshot lists it, as a reference to this object; and any other address as it is. -/
theorem State.settled_overlay {s : State} (h : s.WellFormed) {snapshot : Snapshot}
    (suits : snapshot.Suits s)
    (fields : ∀ x ∈ snapshot.captured, TypeName.isCollection x.1.typeName = false →
      ((x.2.content.entries.getD []).map Entry.key).Nodup) (runningTrigger : Bool) :
    let t := s.overlay snapshot runningTrigger
    ∀ x ∈ snapshot.objects, x.1.mapEntries? x.2.content = none →
      ∃ entry, t.references.get? x.2.address = some entry ∧
        ∀ name v, x.1.Lists x.2.content name v → ∃ child,
          t.store.child? entry name = some child ∧ t.Settled snapshot.text? child v := by
  intro t x hx hmap
  obtain ⟨-, -, depicted⟩ := Overlay.depicted_written h.sound suits
  obtain ⟨entry, hentry⟩ := depicted x hx
  have hrefers : t.references = (Overlay.written s snapshot).state.references :=
    Overlay.references_untold s snapshot runningTrigger
  have hcontents := hentry.contents
  unfold Overlay.Contents at hcontents
  rw [hmap] at hcontents
  have names := Extent.nodup_items (fields x (snapshot.objects_sublist.mem hx))
  refine ⟨entry, hrefers ▸ hentry.known, fun name v hlists => ?_⟩
  obtain ⟨item, hitem, rfl, rfl⟩ := hlists.exists_item
  obtain ⟨waits, unlisted⟩ := s.getD_keptForm x.1 x.2 item.name
  obtain ⟨child, hchild, f⟩ := hcontents.exists_fits (get?_foldl_writeForm names hitem)
  have a := Overlay.above_written snapshot h.sound
  have hchild' := Overlay.field_untold snapshot runningTrigger h.sound hchild
  have f' := Overlay.fits_untold snapshot runningTrigger h.sound f fun y _ =>
    a.not_root hchild id y.2
  have hpaired := Overlay.paired_untold h.sound snapshot runningTrigger
  refine ⟨child, ?_, f'.settled hpaired ?_ (fun address => ?_)
    (Look.settled_write waits _ _ item)⟩
  · have hchildren := ((Overlay.touches_untold snapshot runningTrigger h.sound).entry
      a.sound.orderly hentry.known).2
    refine (Overlay.child?_texts hpaired entry item.name).trans ?_
    rw [← hchild', ← hchildren]
    rfl
  · rw [Look.listed_resolve, Look.listed_write, unlisted]
  · rw [Overlay.references_untold]
    exact Option.isSome_map

/-- An object that is known already, with a field for each kind of value: the address of a list that
comes behind and refers back, that of a string, an address of nothing, and a plain value. -/
def fieldsSnapshot : Snapshot where
  extents :=
    [{ typeName := "A"
       captures :=
        [{ address := "0x1"
           symbols := some ["a"]
           content :=
            { entries :=
                some [⟨"all", .string "0x2"⟩, ⟨"name", .string "0x3"⟩, ⟨"lost", .string "0x9"⟩,
                  ⟨"y", .number "7"⟩] } }] },
      { typeName := "List<A>"
        collectionType := some "A"
        captures :=
          [{ address := "0x2"
             content := { value := .array [.object [("value", .string "0x1")]] } }] },
      { typeName := "String"
        captures := [{ address := "0x3", content := { value := .string "k" } }] }]

set_option maxRecDepth 100000 in
/-- The object and the list refer to each other in the end, and the other fields show what they
hold. -/
theorem State.settled_fieldsSnapshot :
    let s := ((Replay.fresh {} (fun _ => none) objectLog).performAll [.advance, .advance]).live
    let t := s.overlay fieldsSnapshot false
    ∃ object list, t.references.get? "0x1" = some object ∧ t.references.get? "0x2" = some list ∧
      (∃ all, t.store.child? object "all" = some all ∧
        (t.store.get all).reference = some "0x2" ∧
        (t.store.get all).children = (t.store.get list).children) ∧
      (∃ first, t.store.child? list "0" = some first ∧
        (t.store.get first).reference = some "0x1" ∧
        (t.store.get first).children = (t.store.get object).children) ∧
      (∃ name, t.store.child? object "name" = some name ∧ (t.store.get name).value = "'k'" ∧
        (t.store.get name).reference = none) ∧
      (∃ lost, t.store.child? object "lost" = some lost ∧ (t.store.get lost).value = "0x9" ∧
        (t.store.get lost).reference = none) ∧
      ∃ y, t.store.child? object "y" = some y ∧ (t.store.get y).value = "7" := by
  intro s t
  have h : s.WellFormed := ((Replay.wellFormed_fresh {} (fun _ => none) objectLog).run _).live
  have suits : fieldsSnapshot.Suits s := by decide +kernel
  have fields : ∀ x ∈ fieldsSnapshot.captured, TypeName.isCollection x.1.typeName = false →
      ((x.2.content.entries.getD []).map Entry.key).Nodup := by decide +kernel
  have settled := State.settled_overlay h suits fields false
  obtain ⟨object, hobject, ofObject⟩ := settled _ List.mem_cons_self rfl
  obtain ⟨list, hlist, ofList⟩ := settled _ (List.mem_cons_of_mem _ List.mem_cons_self) rfl
  have field : ∀ e ∈ [⟨"all", .string "0x2"⟩, ⟨"name", .string "0x3"⟩, ⟨"lost", .string "0x9"⟩,
      (⟨"y", .number "7"⟩ : Entry)], ∃ child, t.store.child? object e.key = some child ∧
        t.Settled fieldsSnapshot.text? child e.value :=
    fun e he => ofObject _ _ (.field rfl rfl he)
  obtain ⟨all, hall, ofAll⟩ := field ⟨"all", .string "0x2"⟩ (by simp)
  obtain ⟨name, hname, ofName⟩ := field ⟨"name", .string "0x3"⟩ (by simp)
  obtain ⟨lost, hlost, ofLost⟩ := field ⟨"lost", .string "0x9"⟩ (by simp)
  obtain ⟨y, hy, ofY⟩ := field ⟨"y", .number "7"⟩ (by simp)
  obtain ⟨first, hfirst, ofFirst⟩ := ofList (toString 0) _
    (.element rfl rfl (show [Json.object [("value", .string "0x1")]][0]? = some _ from rfl))
  have unknown : t.references.get? "0x9" = none := by decide +kernel
  obtain ⟨hallReference, hallChildren, -⟩ := ofAll.object rfl (by decide) (by decide) hlist
  obtain ⟨hfirstReference, hfirstChildren, -⟩ := ofFirst.object rfl (by decide) (by decide) hobject
  exact ⟨object, list, hobject, hlist, ⟨all, hall, hallReference, hallChildren⟩,
    ⟨first, hfirst, hfirstReference, hfirstChildren⟩,
    ⟨name, hname, ofName.string rfl (by decide) (by decide)⟩,
    ⟨lost, hlost, ofLost.unknown rfl (by decide) (by decide) unknown⟩,
    y, hy, (ofY.text fun _ h => by cases h).1⟩

end Retrace
