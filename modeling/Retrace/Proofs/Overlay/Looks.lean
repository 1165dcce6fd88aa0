import Retrace.Proofs.Overlay.Texts

/-!
# Looks of bindings

What an overlay makes of a binding is told without the numbers of bindings, collections and handles:
a look holds what the binding shows, and says where its children are by saying what they are the
children of. Each write of an overlay changes the look of one binding in a way that depends on
nothing but this look, and spares the others.

* `Label`, `Home`, `Look`: what a binding shows, where its children are, and both together.
* `Look.scalar`, `Look.link`, `Look.assign`, …: what writes make of looks.
* `Overlay.Above`: an overlay under construction above a state.
* `Overlay.Fits`: a binding has a look.
* `Overlay.Spares`: a step leaves other bindings and collections alone.
* **`Overlay.Spares.fits`**: bindings that a step spares keep their looks.
* `Overlay.spares_setScalar`, `Overlay.fits_setScalar`, …: the single writes.
-/

namespace Retrace

/-! ## Looks -/

/-- What a binding shows, but for the number of its handle, and the key it refers to. -/
structure Label where
  /-- The name. -/
  name : String
  /-- The declared type. -/
  typeName : String := ""
  /-- The text of the value. -/
  value : String := ""
  /-- The key of the object referred to. -/
  reference : Option String := none
  /-- Whether the user can expand it. -/
  expandable : Bool := false
  deriving DecidableEq

def Binding.label (b : Binding) : Label where
  name := b.name
  typeName := b.typeName
  value := b.value
  reference := b.reference
  expandable := b.handle.isSome

/-- Where the children of a binding are. -/
inductive Home
  /-- In a collection of the state below the overlay. -/
  | kept (c : CollectionId)
  /-- In a new collection without children. -/
  | fresh
  /-- In the collection of a known object. -/
  | object (address : String)
  /-- In a new collection. -/
  | own
  deriving DecidableEq

/-- What an overlay knows of a binding. -/
structure Look extends Label where
  /-- Where its children are. -/
  home : Home := .fresh
  /-- Whether its text is to be written anew. -/
  shown : Bool := false
  /-- Whether it is listed as a child of a map. -/
  listed : Bool := false
  /-- The addresses for which it waits. -/
  waits : List String := []

namespace Look

variable (l : Look)

/-- The look with another type, when one is told. -/
def typed (type : Option String) : Look :=
  { l with typeName := type.getD l.typeName }

/-- The look as a plain value. -/
def scalar (text : String) : Look :=
  { l with
    value := text
    reference := none
    home := if l.reference.isSome then .fresh else l.home }

/-- The look with an address that waits. -/
def note (address : String) : Look :=
  { l with value := address, waits := l.waits ++ [address] }

/-- The look as a reference to an object of the given type. -/
def link (address type : String) : Look :=
  { l with
    reference := some address
    typeName := if l.typeName = "" then type else l.typeName
    expandable := true
    home := .object address
    shown := true }

/-- The look with a captured value; `strings` tells the captured strings. -/
def assign (strings : String → Option String) (v : Json) : Look :=
  match v.asString?.filter isAddress with
  | none => l.scalar v.text
  | some address =>
    match strings address with
    | some text => l.scalar text
    | none => l.note address

/-- The look with what is told of a captured child. -/
def write (strings : String → Option String) (item : Item) : Look :=
  (l.typed item.typeName).assign strings item.value

/-- The look when an address is looked up; `types` tells the types of the known objects. -/
def settle (types : String → Option String) (address : String) : Look :=
  match types address with
  | some type => l.link address type
  | none => l.scalar address

/-- The look when all addresses that wait are looked up. -/
def resolve (types : String → Option String) : Look :=
  l.waits.foldl (·.settle types ·) { l with waits := [] }

end Look

/-! ## Touches -/

namespace State

variable {s s' : State}

theorem Touch.hasCollection (t : s.Touch s') {c : CollectionId} (hc : s.store.HasCollection c) :
    s'.store.HasCollection c := by
  have created : ∀ name type value, (s.store.create name type value).2.HasCollection c :=
    fun name type value => (s.store.hasCollection_create name type value c).2 (.inl hc)
  cases t with
  | relabel => exact hc
  | @number b => exact ((s.samePlaces_ensureHandle b).hasCollection c).2 hc
  | @child parent _ name =>
    rcases s.childOrCreate_cases parent name with ⟨hsame, -⟩ | ⟨-, hnew⟩
    · rwa [hsame]
    · rw [hnew]
      exact (Store.hasCollection_modifyCollection ..).2 (created name "" "")
  | leave =>
    show c.index < (s.store.collections.push .empty).size
    rw [Array.size_push]
    exact Nat.lt_succ_of_lt hc
  | link => exact hc
  | object key =>
    rcases s.referenceEntry_cases key with ⟨hsame, -⟩ | ⟨-, -, hnew⟩
    · rwa [hsame]
    · rw [hnew]
      exact created "" "" ""
  | clear => exact (Store.hasCollection_modifyCollection ..).2 hc
  | create name type value => exact created name type value
  | global => rwa [store_insertGlobal]

theorem Touch.entry (t : s.Touch s') (h : s.Orderly) {key : String} {entry : BindingId}
    (he : s.references.get? key = some entry) : s'.references.get? key = some entry ∧
      (s'.store.get entry).children = (s.store.get entry).children := by
  have hentry := h.has (x := .object key) he
  have created : ∀ name type value,
      (s.store.create name type value).2.get entry = s.store.get entry := fun name type value =>
    Store.get_create_of_ne _ _ _ _ fun hn => s.store.not_has_create name type value (hn ▸ hentry)
  cases t with
  | relabel b labels =>
    exact ⟨he, Store.get_modify_field _ Binding.children labels.children entry⟩
  | @number b =>
    exact ⟨(references_ensureHandle s b).symm ▸ he,
      get_ensureHandle s b Binding.children (fun _ _ => rfl) entry⟩
  | @child parent _ name =>
    rcases s.childOrCreate_cases parent name with ⟨hsame, -⟩ | ⟨-, hnew⟩
    · rw [hsame]
      exact ⟨he, rfl⟩
    · rw [hnew]
      exact ⟨he, congrArg Binding.children (created name "" "")⟩
  | @leave b inner =>
    have hb : entry ≠ b := fun hb => inner.noEntry key (hb ▸ he)
    exact ⟨he, congrArg Binding.children
      ((Store.get_modify_of_ne _ hb).trans (Store.get_modify_of_ne _ hb))⟩
  | @link b _ _ inner =>
    have hb : entry ≠ b := fun hb => inner.noEntry key (hb ▸ he)
    exact ⟨he, congrArg Binding.children
      ((Store.get_modify_of_ne _ hb).trans (Store.get_modify_of_ne _ hb))⟩
  | object k labels =>
    have children : ∀ b, (((s.referenceEntry k).2.store.modify (s.referenceEntry k).1 _).get
        b).children = ((s.referenceEntry k).2.store.get b).children :=
      Store.get_modify_field _ Binding.children labels.children
    refine ⟨?_, (children entry).trans ?_⟩
    · show (s.referenceEntry k).2.slot? (.object key) = _
      rw [slot?_referenceEntry]
      split
      · next hk =>
        cases hk
        simp only [referenceEntry, he]
      · exact he
    · rcases s.referenceEntry_cases k with ⟨hsame, -⟩ | ⟨-, -, hnew⟩
      · rw [hsame]
      · have hne : entry ≠ (s.store.create "" "" "").1 := fun hn =>
          s.store.not_has_create "" "" "" (hn ▸ hentry)
        rw [hnew]
        exact congrArg Binding.children
          ((Store.get_modify_of_ne _ hne).trans (created "" "" ""))
  | clear => exact ⟨he, rfl⟩
  | create name type value => exact ⟨he, congrArg Binding.children (created name type value)⟩
  | global has unplaced name =>
    refine ⟨?_, by rw [store_insertGlobal]⟩
    unfold insertGlobal modifyTop
    split <;> exact he

namespace Touches

theorem field_of_has (h : s.Touches s') (hs : s.Orderly) {b : BindingId} (hb : s.store.Has b)
    {c : CollectionId} {name : String} (hx : s'.slot? (.field c name) = some b) :
    s.slot? (.field c name) = some b := by
  have step := h.invariant (I := fun s' => s'.Orderly ∧ s'.store.Has b ∧
      (s'.slot? (.field c name) = some b → s.slot? (.field c name) = some b))
    (fun t h => ⟨t.orderly h.1, t.has h.2.1, fun hx => ?_⟩) ⟨hs, hb, id⟩
  · exact step.2.2 hx
  · rcases t.slots_of_has h.1.toClosed h.2.1 hx with hold | ⟨frame, name, hx⟩
    · exact h.2.2 hold
    · cases hx

theorem object_of_has (h : s.Touches s') {b : BindingId} (hb : s.store.Has b) {key : String}
    (he : s'.references.get? key = some b) : s.references.get? key = some b := by
  have step := h.invariant (I := fun s' => s'.store.Has b ∧
      (s'.references.get? key = some b → s.references.get? key = some b))
    (fun t h => ⟨t.has h.1, fun he => h.2 (t.slot_object h.1 he)⟩) ⟨hb, id⟩
  exact step.2 he

theorem hasCollection (h : s.Touches s') {c : CollectionId} (hc : s.store.HasCollection c) :
    s'.store.HasCollection c :=
  h.invariant (I := fun s => s.store.HasCollection c) (fun t hc => t.hasCollection hc) hc

theorem entry (h : s.Touches s') (hs : s.Orderly) {key : String} {entry : BindingId}
    (he : s.references.get? key = some entry) : s'.references.get? key = some entry ∧
      (s'.store.get entry).children = (s.store.get entry).children :=
  (h.invariant (I := fun s' => s'.Orderly ∧ s'.references.get? key = some entry ∧
    (s'.store.get entry).children = (s.store.get entry).children)
    (fun t h => ⟨t.orderly h.1, (t.entry h.1 h.2.1).1, (t.entry h.1 h.2.1).2.trans h.2.2⟩)
    ⟨hs, he, rfl⟩).2

end Touches

end State

namespace Overlay

variable {s : State} {o o' o'' : Overlay} {b x : BindingId} {l : Look}

/-! ## Overlays above a state -/

theorem Move.touched_cases (m : o.Move o') (v : o.Valid) (hb : b ∈ o'.touched) :
    b ∈ o.touched ∨ o'.state.store.Has b := by
  cases m with
  | @link c entry address inner known =>
    refine (List.mem_append.1 hb).imp_right fun hb => ?_
    rw [List.mem_singleton.1 hb]
    exact (link inner known).touches.has inner.has
  | object extent c =>
    rw [touched_openObject] at hb
    refine (List.mem_append.1 hb).imp_right fun hb => ?_
    rw [List.mem_singleton.1 hb]
    exact has_openObject v extent c
  | _ => exact .inl hb

theorem Move.pairs_cases (m : o.Move o') (v : o.Valid) (hb : b ∈ o'.pairs) :
    b ∈ o.pairs ∨ o'.state.store.Has b := by
  cases m with
  | pair placed =>
    refine (List.mem_append.1 hb).imp_right fun hb => ?_
    rw [List.mem_singleton.1 hb]
    exact v.orderly.has placed
  | object extent c => exact .inl (o.pairs_openObject extent c ▸ hb)
  | _ => exact .inl hb

/-- **An overlay under construction**, above the state `s`: what it notes is there. -/
structure Above (s : State) (o : Overlay) : Prop where
  base : s.Sound
  sound : o.state.Sound
  touches : s.Touches o.state
  touched : ∀ b ∈ o.touched, o.state.store.Has b
  pairs : ∀ b ∈ o.pairs, o.state.store.Has b
  pending : ∀ noted ∈ o.pending, o.state.Inner noted.1

namespace Above

theorem start (hs : s.Sound) (snapshot : Snapshot) : Above s (start s snapshot) where
  base := hs
  sound := hs
  touches := .refl s
  touched _ h := absurd h List.not_mem_nil
  pairs _ h := absurd h List.not_mem_nil
  pending _ h := absurd h List.not_mem_nil

theorem valid (a : Above s o) : o.Valid := ⟨a.sound.orderly, a.pending⟩

theorem move (a : Above s o) (m : o.Move o') : Above s o' where
  base := a.base
  sound := m.sound a.sound
  touches := a.touches.trans m.touches
  touched b hb := (m.touched_cases a.valid hb).elim (fun h => m.touches.has (a.touched b h)) id
  pairs b hb := (m.pairs_cases a.valid hb).elim (fun h => m.touches.has (a.pairs b h)) id
  pending := (m.valid a.valid).pending

theorem leads (a : Above s o) (h : o.Leads o') : Above s o' :=
  h.moves.invariant (fun m a => a.move m) a

theorem self (a : Above s o) : Above o.state o :=
  ⟨a.sound, a.sound, .refl _, a.touched, a.pairs, a.pending⟩

theorem grown (a : Above s o) {c : CollectionId} (hc : s.store.HasCollection c) :
    o.state.store.HasCollection c :=
  a.touches.hasCollection hc

theorem not_has_of_field (a : Above s o) {c : CollectionId} (hc : ¬ s.store.HasCollection c)
    {name : String} (hx : o.state.slot? (.field c name) = some x) : ¬ s.store.Has x := fun hs => by
  have hold := a.touches.field_of_has a.base.orderly hs hx
  change (s.store.collection c).get? name = some x at hold
  rw [Store.collection_of_not_has _ hc] at hold
  cases hold

theorem not_hasCollection (a : Above s o) :
    ¬ s.store.HasCollection ⟨o.state.store.collections.size⟩ :=
  fun hc => Nat.lt_irrefl _ (a.grown hc)

end Above

/-! ## Fitting a look -/

/-- The addresses for which a binding waits. -/
def waits (o : Overlay) (b : BindingId) : List String :=
  (o.pending.filter (·.1 = b)).map Prod.snd

theorem mem_waits {noted : BindingId × String} (h : noted ∈ o.pending) :
    noted.2 ∈ o.waits noted.1 :=
  List.mem_map_of_mem (List.mem_filter.2 ⟨h, decide_eq_true rfl⟩)

theorem Above.unnoted (a : Above s o) (hb : ¬ o.state.store.Has b) :
    b ∉ o.targets ∧ b ∉ o.pairs ∧ o.waits b = [] := by
  refine ⟨fun h => ?_, fun h => hb (a.pairs b h), ?_⟩
  · rcases List.mem_append.1 h with h | h
    · exact hb (a.touched b h)
    · obtain ⟨key, he⟩ := Table.mem_values_iff.1 h
      exact hb (a.sound.has (x := .object key) he)
  · unfold waits
    rw [List.map_eq_nil_iff, List.filter_eq_nil_iff]
    intro noted hn
    simpa using fun h : noted.1 = b => hb (h ▸ (a.pending noted hn).has)

/-- The collection `c` of the state `t` is where the children are, over the state `s` below. -/
def Houses (s t : State) : Home → CollectionId → Prop
  | .kept d, c => c = d ∧ s.store.HasCollection d
  | .fresh, c => ¬ s.store.HasCollection c ∧ t.store.collection c = .empty
  | .object address, c =>
    ∃ entry, t.references.get? address = some entry ∧ c = (t.store.get entry).children
  | .own, c => ¬ s.store.HasCollection c

/-- **A binding has a look**, over the state `s` below. -/
structure Fits (s : State) (o : Overlay) (b : BindingId) (l : Look) : Prop where
  has : o.state.store.Has b
  label : (o.state.store.get b).label = l.toLabel
  home : Houses s o.state l.home (o.state.store.get b).children
  shown : b ∈ o.targets ↔ l.shown = true
  listed : b ∈ o.pairs ↔ l.listed = true
  waits : o.waits b = l.waits

/-- **A step leaves alone** what is neither among the bindings `B` nor among the collections `C`. -/
structure Spares (o o' : Overlay) (B : BindingId → Prop) (C : CollectionId → Prop) : Prop where
  touches : o.state.Touches o'.state
  strings : o'.strings = o.strings
  get : ∀ {b}, o.state.store.Has b → ¬ B b → o'.state.store.get b = o.state.store.get b
  collection : ∀ {c}, o.state.store.HasCollection c → ¬ C c →
    o'.state.store.collection c = o.state.store.collection c
  shown : ∀ {b}, o.state.store.Has b → ¬ B b → (b ∈ o'.targets ↔ b ∈ o.targets)
  listed : ∀ {b}, o.state.store.Has b → ¬ B b → (b ∈ o'.pairs ↔ b ∈ o.pairs)
  waits : ∀ {b}, o.state.store.Has b → ¬ B b → o'.waits b = o.waits b

namespace Spares

variable {B B' : BindingId → Prop} {C C' : CollectionId → Prop}

theorem refl (o : Overlay) : o.Spares o B C :=
  ⟨.refl _, rfl, fun _ _ => rfl, fun _ _ => rfl, fun _ _ => Iff.rfl, fun _ _ => Iff.rfl,
    fun _ _ => rfl⟩

/-- What is new to a step counts for nothing. -/
theorem mono (h : o.Spares o' B C) (bindings : ∀ b, o.state.store.Has b → B b → B' b)
    (collections : ∀ c, o.state.store.HasCollection c → C c → C' c) : o.Spares o' B' C' where
  touches := h.touches
  strings := h.strings
  get hb hB := h.get hb (mt (bindings _ hb) hB)
  collection hc hC := h.collection hc (mt (collections _ hc) hC)
  shown hb hB := h.shown hb (mt (bindings _ hb) hB)
  listed hb hB := h.listed hb (mt (bindings _ hb) hB)
  waits hb hB := h.waits hb (mt (bindings _ hb) hB)

theorem field (h : o.Spares o' B C) {c : CollectionId} (hc : o.state.store.HasCollection c)
    (hC : ¬ C c) (name : String) :
    o'.state.slot? (.field c name) = o.state.slot? (.field c name) :=
  congrArg (·.get? name) (h.collection hc hC)

theorem trans (h : o.Spares o' B C) (h' : o'.Spares o'' B' C')
    (bindings : ∀ b, o.state.store.Has b → B' b → B b)
    (collections : ∀ c, o.state.store.HasCollection c → C' c → C c) : o.Spares o'' B C := by
  have old : ∀ {b}, o.state.store.Has b → ¬ B b → ¬ B' b := fun hb => mt (bindings _ hb)
  constructor
  case touches => exact h.touches.trans h'.touches
  case strings => exact h'.strings.trans h.strings
  case get =>
    intro b hb hB
    exact (h'.get (h.touches.has hb) (old hb hB)).trans (h.get hb hB)
  case collection =>
    intro c hc hC
    exact (h'.collection (h.touches.hasCollection hc) (mt (collections c hc) hC)).trans
      (h.collection hc hC)
  case shown =>
    intro b hb hB
    exact (h'.shown (h.touches.has hb) (old hb hB)).trans (h.shown hb hB)
  case listed =>
    intro b hb hB
    exact (h'.listed (h.touches.has hb) (old hb hB)).trans (h.listed hb hB)
  case waits =>
    intro b hb hB
    exact (h'.waits (h.touches.has hb) (old hb hB)).trans (h.waits hb hB)

end Spares

/-- A binding keeps its children where they are while the collections that matter stay. -/
theorem Houses.keep {t t' : State} {h : Home} {c : CollectionId} (touches : t.Touches t')
    (ht : t.Orderly) (fresh : h = .fresh → t'.store.collection c = t.store.collection c)
    (hh : Houses s t h c) : Houses s t' h c := by
  cases h with
  | kept | own => exact hh
  | fresh => exact ⟨hh.1, (fresh rfl).trans hh.2⟩
  | object address =>
    obtain ⟨entry, he, hc⟩ := hh
    obtain ⟨he', hchildren⟩ := touches.entry ht he
    exact ⟨entry, he', hc.trans hchildren.symm⟩

/-- **A binding that a step spares keeps its look.** -/
theorem Spares.fits {B : BindingId → Prop} {C : CollectionId → Prop} (h : o.Spares o' B C)
    (ho : o.state.Orderly) (f : o.Fits s b l) (hB : ¬ B b)
    (hC : l.home = .fresh → ¬ C (o.state.store.get b).children) : o'.Fits s b l where
  has := h.touches.has f.has
  label := (congrArg Binding.label (h.get f.has hB)).trans f.label
  home := by
    rw [h.get f.has hB]
    exact f.home.keep h.touches ho fun hfresh => h.collection (ho.whole b f.has) (hC hfresh)
  shown := (h.shown f.has hB).trans f.shown
  listed := (h.listed f.has hB).trans f.listed
  waits := (h.waits f.has hB).trans f.waits

/-! ## Single writes -/

theorem spares_of_get (touches : o.state.Touches o'.state) (strings : o'.strings = o.strings)
    (get : ∀ c, c ≠ b → o'.state.store.get c = o.state.store.get c)
    (collection : ∀ c, o'.state.store.collection c = o.state.store.collection c)
    (shown : ∀ c, c ≠ b → (c ∈ o'.targets ↔ c ∈ o.targets))
    (pairs : ∀ c, c ≠ b → (c ∈ o'.pairs ↔ c ∈ o.pairs))
    (waits : ∀ c, c ≠ b → o'.waits c = o.waits c) :
    o.Spares o' (· = b) (fun _ => False) :=
  ⟨touches, strings, fun _ => get _, fun _ _ => collection _, fun _ => shown _, fun _ => pairs _,
    fun _ => waits _⟩

theorem spares_setType (o : Overlay) (b : BindingId) (type : String) :
    o.Spares (o.mapStore (·.setType b type)) (· = b) (fun _ => False) :=
  spares_of_get (.single (.relabel b {} fun _ => rfl)) rfl
    (fun _ hc => get_setType_of_ne hc type) (fun _ => rfl) (fun _ _ => Iff.rfl) (fun _ _ => Iff.rfl)
    fun _ _ => rfl

theorem fits_setType (ho : o.state.Orderly) (f : o.Fits s b l) (type : String) :
    (o.mapStore (·.setType b type)).Fits s b (l.typed (some type)) where
  has := (Store.has_modify ..).2 f.has
  label := by
    rw [get_setType_self f.has]
    exact congrArg (fun label : Label => { label with typeName := type }) f.label
  home := by
    rw [get_setType_self f.has]
    exact f.home.keep (o.spares_setType b type).touches ho fun _ => rfl
  shown := f.shown
  listed := f.listed
  waits := f.waits

theorem collection_setScalar (o : Overlay) (b : BindingId) (text : String) (c : CollectionId) :
    (o.setScalar b text).state.store.collection c = o.state.store.collection c := by
  rw [setScalar_eq]
  split
  · exact o.state.store.collection_create "" "" "" c
  · rfl

theorem spares_setScalar (hb : o.state.Inner b) (text : String) :
    o.Spares (o.setScalar b text) (· = b) (fun _ => False) :=
  spares_of_get (Move.scalar hb text).touches rfl (fun _ hc => get_setScalar_of_ne hc text)
    (collection_setScalar o b text) (fun _ _ => Iff.rfl) (fun _ _ => Iff.rfl) fun _ _ => rfl

theorem fits_setScalar (a : Above s o) (hb : o.state.Inner b) (f : o.Fits s b l)
    (text : String) : (o.setScalar b text).Fits s b (l.scalar text) where
  has := (spares_setScalar hb text).touches.has f.has
  label := by
    rw [get_setScalar_self f.has]
    exact congrArg (fun label : Label => { label with value := text, reference := none }) f.label
  home := by
    have hr : (o.state.store.get b).reference = l.reference := congrArg Label.reference f.label
    rw [get_setScalar_self f.has]
    unfold Look.scalar
    dsimp only
    rw [hr]
    split
    · refine ⟨a.not_hasCollection, ?_⟩
      rw [collection_setScalar]
      exact Store.collection_of_not_has _ (Nat.lt_irrefl _)
    · exact f.home.keep (spares_setScalar hb text).touches a.sound.orderly fun _ =>
        collection_setScalar o b text _
  shown := f.shown
  listed := f.listed
  waits := f.waits

theorem waits_note (o : Overlay) (b c : BindingId) (address : String) :
    waits { o with pending := o.pending ++ [(b, address)] } c =
      if c = b then o.waits c ++ [address] else o.waits c := by
  unfold waits
  dsimp only
  rw [List.filter_append, List.map_append]
  by_cases h : c = b
  · simp [h]
  · simp [h, Ne.symm h]

theorem spares_note (hb : o.state.Inner b) (address : String) :
    o.Spares { o.mapStore (·.setValue b address) with pending := o.pending ++ [(b, address)] }
      (· = b) (fun _ => False) :=
  spares_of_get (Move.note hb address).touches rfl (fun _ hc => get_setValue_of_ne hc address)
    (fun _ => rfl) (fun _ _ => Iff.rfl) (fun _ _ => Iff.rfl) fun c hc =>
      (waits_note o b c address).trans (if_neg hc)

theorem fits_note (ho : o.state.Orderly) (hb : o.state.Inner b) (f : o.Fits s b l)
    (address : String) :
    Fits s { o.mapStore (·.setValue b address) with pending := o.pending ++ [(b, address)] } b
      (l.note address) where
  has := (Store.has_modify ..).2 f.has
  label := by
    refine (congrArg Binding.label (get_setValue_self f.has address)).trans ?_
    exact congrArg (fun label : Label => { label with value := address }) f.label
  home := by
    have hget : ({ o.mapStore (·.setValue b address) with
        pending := o.pending ++ [(b, address)] } : Overlay).state.store.get b = _ :=
      get_setValue_self f.has address
    rw [hget]
    exact f.home.keep (spares_note hb address).touches ho fun _ => rfl
  shown := f.shown
  listed := f.listed
  waits := by
    refine (waits_note o b b address).trans ?_
    rw [if_pos rfl, f.waits]
    rfl

theorem spares_link (hb : o.state.Inner b) {entry : BindingId} {address : String}
    (he : o.state.references.get? address = some entry) :
    o.Spares (o.link b entry address) (· = b) (fun _ => False) := by
  refine spares_of_get (Move.link hb he).touches rfl (fun _ hc => get_link_of_ne hc entry address)
    (fun c => ?_) (fun c hc => ?_) (fun _ _ => Iff.rfl) fun _ _ => rfl
  · exact (State.samePlaces_ensureHandle _ b).tables c
  · have hrefs : (o.link b entry address).state.references = o.state.references :=
      State.references_ensureHandle _ b
    unfold targets
    rw [hrefs]
    simp [link, hc]

theorem fits_link (ho : o.state.Orderly) (hb : o.state.Inner b) (f : o.Fits s b l)
    {entry : BindingId} {address : String}
    (he : o.state.references.get? address = some entry) :
    (o.link b entry address).Fits s b
      (l.link address (o.state.store.get entry).typeName) where
  has := (spares_link hb he).touches.has f.has
  label := by
    obtain ⟨n, hn⟩ := get_link_self f.has entry address
    have htype : (o.state.store.get b).typeName = l.typeName := congrArg Label.typeName f.label
    have hlabel := congrArg (fun label : Label =>
      { label with
        reference := some address
        typeName := if l.typeName = "" then (o.state.store.get entry).typeName else l.typeName
        expandable := true }) f.label
    rw [hn, htype]
    exact hlabel
  home := by
    obtain ⟨n, hn⟩ := get_link_self f.has entry address
    obtain ⟨he', hchildren⟩ := (spares_link hb he).touches.entry ho he
    rw [hn]
    exact ⟨entry, he', hchildren.symm⟩
  shown := iff_of_true (List.mem_append_left _ (List.mem_append_right _ (List.mem_singleton_self b)))
    rfl
  listed := f.listed
  waits := f.waits

theorem spares_assignSlot (hb : o.state.Inner b) (v : Json) :
    o.Spares (o.assignSlot b v) (· = b) (fun _ => False) := by
  unfold assignSlot
  split
  · exact spares_setScalar hb _
  · split
    · exact spares_setScalar hb _
    · exact spares_note hb _

theorem fits_assignSlot (a : Above s o) (hb : o.state.Inner b) (f : o.Fits s b l) (v : Json) :
    (o.assignSlot b v).Fits s b (l.assign o.strings.get? v) := by
  unfold assignSlot Look.assign
  cases v.asString?.filter isAddress with
  | none => exact fits_setScalar a hb f v.text
  | some address =>
    dsimp only
    cases o.strings.get? address with
    | some text => exact fits_setScalar a hb f text
    | none => exact fits_note a.sound.orderly hb f address

theorem spares_number (hb : o.state.store.Has b) :
    o.Spares (o.mapState (·.ensureHandle b)) (· = b) (fun _ => False) :=
  spares_of_get (.single (.number hb)) rfl (fun _ hc => State.get_ensureHandle_of_ne hc)
    (State.samePlaces_ensureHandle _ b).tables
    (fun c _ => by unfold targets mapState; rw [State.references_ensureHandle])
    (fun _ _ => Iff.rfl) fun _ _ => rfl

theorem fits_number (ho : o.state.Orderly) (f : o.Fits s b l) :
    (o.mapState (·.ensureHandle b)).Fits s b { l with expandable := true } := by
  obtain ⟨n, hn⟩ := State.get_ensureHandle_self o.state f.has
  have hget : (o.mapState (·.ensureHandle b)).state.store.get b = _ := hn
  have spares := spares_number f.has
  constructor
  case has => exact spares.touches.has f.has
  case label =>
    rw [hget]
    exact congrArg (fun label : Label => { label with expandable := true }) f.label
  case home =>
    rw [hget]
    exact f.home.keep spares.touches ho fun _ => (State.samePlaces_ensureHandle _ b).tables _
  case shown =>
    refine Iff.trans ?_ f.shown
    unfold targets mapState
    rw [State.references_ensureHandle]
  case listed => exact f.listed
  case waits => exact f.waits

theorem spares_list (o : Overlay) (b : BindingId) :
    o.Spares { o with pairs := o.pairs ++ [b] } (· = b) (fun _ => False) :=
  spares_of_get (.refl _) rfl (fun _ _ => rfl) (fun _ => rfl) (fun _ _ => Iff.rfl)
    (fun c hc => by simp [hc]) fun _ _ => rfl

theorem fits_list (f : o.Fits s b l) :
    Fits s { o with pairs := o.pairs ++ [b] } b { l with listed := true } :=
  ⟨f.has, f.label, f.home, f.shown,
    iff_of_true (List.mem_append_right _ (List.mem_singleton_self b)) rfl, f.waits⟩

theorem spares_resolve {noted : BindingId × String} (hb : o.state.Inner noted.1) :
    o.Spares (o.resolve noted) (· = noted.1) (fun _ => False) := by
  unfold resolve
  split
  · next entry he => exact spares_link hb he
  · exact spares_setScalar hb _

theorem spares_childOrCreate (hb : o.state.store.Has b) (name : String) :
    o.Spares (o.childOrCreate b name).2 (fun _ => False)
      (· = (o.state.store.get b).children) where
  touches := (Move.child hb name).touches
  strings := rfl
  get hc _ := get_childOrCreate hc b name
  collection {c} hc hne := by
    rcases o.state.childOrCreate_cases b name with ⟨hsame, -⟩ | ⟨-, hnew⟩
    · exact congrArg (fun s : State => s.store.collection c) hsame
    · refine (congrArg (fun s : State => s.store.collection c) hnew).trans ?_
      exact (Store.collection_modifyCollection_of_ne _ hne).trans
        (Store.collection_create ..)
  shown _ _ := Iff.rfl
  listed _ _ := Iff.rfl
  waits _ _ := rfl

theorem spares_enlist (hb : o.state.store.Has b) :
    o.Spares (o.enlist b) (· = b) (fun _ => False) := by
  let typed := o.mapStore (·.setType b pairType)
  let numbered := typed.mapState (·.ensureHandle b)
  have htyped : o.Spares typed _ _ := o.spares_setType b pairType
  have hnumbered : typed.Spares numbered _ _ := spares_number (htyped.touches.has hb)
  have hlisted : numbered.Spares (o.enlist b) _ _ := numbered.spares_list b
  exact htyped.trans (hnumbered.trans hlisted (fun _ _ => id) fun _ _ => id) (fun _ _ => id)
    fun _ _ => id

theorem fits_enlist (ho : o.state.Orderly) (f : o.Fits s b l) :
    (o.enlist b).Fits s b { l with typeName := pairType, expandable := true, listed := true } :=
  fits_list (fits_number ((o.spares_setType b pairType).touches.orderly ho)
    (fits_setType ho f pairType))

theorem collection_childOrCreate (ho : o.state.Orderly) (hb : o.state.store.Has b)
    (name : String) : (o.childOrCreate b name).2.state.store.collection
      (o.state.store.get b).children =
        if o.state.store.child? b name = none then
          (o.state.store.children b).insert name (o.childOrCreate b name).1
        else o.state.store.children b := by
  cases h : o.state.store.child? b name with
  | some c =>
    have hsame := o.state.store.childOrCreate_of_some b name h
    exact congrArg (fun p => p.2.collection (o.state.store.get b).children) hsame
  | none =>
    have hnew := o.state.store.childOrCreate_of_none b name h
    have hc := ho.whole b hb
    rw [if_pos rfl]
    refine (congrArg (fun p => p.2.collection (o.state.store.get b).children) hnew).trans ?_
    refine (Store.collection_modifyCollection_self _ ?_).trans ?_
    · exact (Store.hasCollection_create ..).2 (.inl hc)
    · have hfst : (o.childOrCreate b name).1 = (o.state.store.create name "" "").1 :=
        congrArg Prod.fst hnew
      rw [Store.collection_create, hfst]
      rfl

theorem childOrCreate_of_some {name : String} (h : o.state.store.child? b name = some x) :
    o.childOrCreate b name = (x, o) := by
  unfold childOrCreate State.childOrCreate
  rw [o.state.store.childOrCreate_of_some b name h]

theorem fits_childOrCreate (a : Above s o) (hb : o.state.store.Has b) {name : String}
    (missing : o.state.store.child? b name = none) :
    (o.childOrCreate b name).2.Fits s (o.childOrCreate b name).1 { name } := by
  have hnew := o.state.store.childOrCreate_of_none b name missing
  have hfst : (o.childOrCreate b name).1 = (o.state.store.create name "" "").1 :=
    congrArg Prod.fst hnew
  have hget : (o.childOrCreate b name).2.state.store.get (o.childOrCreate b name).1 =
      { name, children := ⟨o.state.store.collections.size⟩ } := by
    rw [hfst]
    exact (congrArg (fun p => p.2.get (o.state.store.create name "" "").1) hnew).trans
      (Store.get_create_self ..)
  have has := State.has_childOrCreate a.sound.orderly.toClosed b name
  obtain ⟨shown, listed, waits⟩ := a.unnoted (hfst ▸ o.state.store.not_has_create name "" "")
  refine ⟨has, congrArg Binding.label hget, ?_, iff_of_false shown (by simp),
    iff_of_false listed (by simp), waits⟩
  rw [hget]
  refine ⟨a.not_hasCollection, ?_⟩
  -- the new collection is not the one that gets the child
  have hne : (⟨o.state.store.collections.size⟩ : CollectionId) ≠
      (o.state.store.get b).children := fun h =>
    Nat.lt_irrefl _ (show o.state.store.HasCollection _ from h ▸ a.sound.hasCollection hb)
  refine (congrArg (fun p => p.2.collection ⟨o.state.store.collections.size⟩) hnew).trans ?_
  refine (Store.collection_modifyCollection_of_ne _ hne).trans ?_
  rw [Store.collection_create]
  exact Store.collection_of_not_has _ (Nat.lt_irrefl _)

end Overlay

end Retrace
