import Retrace.Proofs.State.Assignments
import Retrace.Proofs.Tables

/-!
# What decoding leaves behind

An object that is written field by field into a binding without children is then found below it:
the fields in order, each with its value. Objects in it get bindings and collections of their own; a
key leads to the object that is known by it, which may be the very object that is being written.

* `Literal.Distinct`: no name comes twice in an object.
* `State.Holds`, `State.HoldsFields`: a binding holds a value.
* `State.Grows`: what writing into new places leaves alone.
* **`State.holds_decodeFields`**: what decoding leaves behind.
-/

namespace Retrace

namespace Literal

mutual

/-- No name comes twice in an object, nor in the objects in it. -/
def Distinct : Literal → Prop
  | .object fields => (fields.map Prod.fst).Nodup ∧ DistinctFields fields
  | .quoted _ | .bare _ | .array _ => True

/-- The values of the fields have distinct names. -/
def DistinctFields : List (String × Literal) → Prop
  | [] => True
  | (_, v) :: fields => v.Distinct ∧ DistinctFields fields

end

end Literal

namespace State

mutual

/-- The binding holds the value. Objects in it have the collections that `own` tells. -/
inductive Holds (s : State) (own : CollectionId → Prop) : BindingId → Literal → Prop
  /-- An object is expandable, refers to nothing known and shows no text. -/
  | object {b : BindingId} {fields : List (String × Literal)} (value : (s.store.get b).value = "")
      (handle : (s.store.get b).handle.isSome) (reference : (s.store.get b).reference = none)
      (apart : own (s.store.get b).children)
      (children : HoldsFields s own (s.store.children b).entries fields) :
      Holds s own b (.object fields)
  /-- A string or a token that is the key of a known object makes an alias of it. -/
  | linked {b entry : BindingId} {v : Literal} {key : String}
      (names : v = .quoted key ∨ v = .bare key) (known : s.references.get? key = some entry)
      (reference : (s.store.get b).reference = some key)
      (children : (s.store.get b).children = (s.store.get entry).children)
      (handle : (s.store.get b).handle.isSome) : Holds s own b v
  /-- Any other string is shown in single quotes. -/
  | quoted {b : BindingId} {text : String} (unknown : s.references.get? text = none)
      (reference : (s.store.get b).reference = none)
      (value : (s.store.get b).value = "'" ++ text ++ "'") : Holds s own b (.quoted text)
  /-- Any other token is shown as it is. -/
  | bare {b : BindingId} {text : String} (unknown : s.references.get? text = none)
      (reference : (s.store.get b).reference = none) (value : (s.store.get b).value = text) :
      Holds s own b (.bare text)
  /-- A list is shown as it is written. -/
  | array {b : BindingId} {text : String} (reference : (s.store.get b).reference = none)
      (value : (s.store.get b).value = text) : Holds s own b (.array text)

/-- The bindings hold the fields, in order and with their names. -/
inductive HoldsFields (s : State) (own : CollectionId → Prop) :
    List (String × BindingId) → List (String × Literal) → Prop
  | nil : HoldsFields s own [] []
  | cons {name : String} {child : BindingId} {v : Literal} {entries : List (String × BindingId)}
      {fields : List (String × Literal)} (called : (s.store.get child).name = name)
      (value : Holds s own child v) (rest : HoldsFields s own entries fields) :
      HoldsFields s own ((name, child) :: entries) ((name, v) :: fields)

end

section Holds

variable {s : State} {own : CollectionId → Prop} {b : BindingId} {v : Literal} {key text : String}

theorem Holds.reference_of_known (h : s.Holds own b v) (names : v = .quoted key ∨ v = .bare key)
    (known : s.references.get? key ≠ none) : (s.store.get b).reference = some key := by
  cases h with
  | object | array => rcases names with h | h <;> cases h
  | linked names' _ reference =>
    rcases names with rfl | rfl <;> rcases names' with h | h <;> cases h <;> exact reference
  | quoted unknown =>
    rcases names with h | h <;> cases h
    exact absurd unknown known
  | bare unknown =>
    rcases names with h | h <;> cases h
    exact absurd unknown known

theorem Holds.value_of_unknown (h : s.Holds own b (.quoted text))
    (unknown : s.references.get? text = none) :
    (s.store.get b).value = "'" ++ text ++ "'" := by
  cases h with
  | linked names known =>
    rcases names with h | h <;> cases h
    cases unknown.symm.trans known
  | quoted _ _ value => exact value

end Holds

/-! ## What stays -/

/-- Everything that was there is as it was, but for the bindings in `B` and the tables of the
collections in `C`. -/
structure Grows (s : State) (B : BindingId → Prop) (C : CollectionId → Prop) (s' : State) :
    Prop where
  references : s'.references = s.references
  has : ∀ b, s.store.Has b → s'.store.Has b
  hasCollection : ∀ c, s.store.HasCollection c → s'.store.HasCollection c
  get : ∀ b, s.store.Has b → ¬ B b → s'.store.get b = s.store.get b
  collection : ∀ c, s.store.HasCollection c → ¬ C c → s'.store.collection c = s.store.collection c

/-- What held bindings are made of is as it was: known objects have their collections, children
are unchanged, and so are the tables that `own` tells. -/
structure Retains (s : State) (own : CollectionId → Prop) (s' : State) : Prop where
  references : s'.references = s.references
  entries : ∀ key entry, s.slot? (.object key) = some entry →
    (s'.store.get entry).children = (s.store.get entry).children
  children : ∀ c name b, s.slot? (.field c name) = some b → s'.store.get b = s.store.get b
  tables : ∀ c, s.store.HasCollection c → own c → s'.store.collection c = s.store.collection c

section Grows

variable {s s' s'' : State} {B B' : BindingId → Prop} {C C' own own' : CollectionId → Prop}

theorem Grows.refl (s : State) : s.Grows B C s :=
  ⟨rfl, fun _ => id, fun _ => id, fun _ _ _ => rfl, fun _ _ _ => rfl⟩

theorem Grows.mono (h : s.Grows B C s') (hB : ∀ b, B b → B' b) (hC : ∀ c, C c → C' c) :
    s.Grows B' C' s' :=
  ⟨h.references, h.has, h.hasCollection, fun b hb hn => h.get b hb fun hb => hn (hB b hb),
    fun c hc hn => h.collection c hc fun hc => hn (hC c hc)⟩

theorem Grows.trans (h : s.Grows B C s') (h' : s'.Grows B' C' s'')
    (hB : ∀ b, s.store.Has b → B' b → B b) (hC : ∀ c, s.store.HasCollection c → C' c → C c) :
    s.Grows B C s'' where
  references := h'.references.trans h.references
  has b hb := h'.has b (h.has b hb)
  hasCollection c hc := h'.hasCollection c (h.hasCollection c hc)
  get b hb hn := (h'.get b (h.has b hb) fun hn' => hn (hB b hb hn')).trans (h.get b hb hn)
  collection c hc hn :=
    (h'.collection c (h.hasCollection c hc) fun hn' => hn (hC c hc hn')).trans
      (h.collection c hc hn)

theorem Retains.refl (s : State) : s.Retains own s :=
  ⟨rfl, fun _ _ _ => rfl, fun _ _ _ _ => rfl, fun _ _ _ => rfl⟩

/-- Growth that changes no binding retains what is held outside the tables that change. -/
theorem Grows.retains (hs : s.Sound) (h : s.Grows (fun _ => False) C s')
    (apart : ∀ c, own c → ¬ C c) : s.Retains own s' where
  references := h.references
  entries key entry he := by rw [h.get entry (hs.has he) id]
  children c name b hb := h.get b (hs.has hb) id
  tables c hc ho := h.collection c hc (apart c ho)

mutual

theorem Holds.retained {b : BindingId} {v : Literal} (h : s.Holds own b v) (hs : s.Sound)
    (r : s.Retains own s') (weaken : ∀ c, own c → own' c) (hb : s.store.Has b)
    (same : s'.store.get b = s.store.get b) : s'.Holds own' b v := by
  cases h with
  | object value handle reference apart children =>
    have table : s'.store.children b = s.store.children b := by
      unfold Store.children
      rw [same, r.tables _ (hs.hasCollection hb) apart]
    refine .object (same ▸ value) (same ▸ handle) (same ▸ reference) (same ▸ weaken _ apart) ?_
    rw [table]
    exact children.retained hs r weaken fun e he =>
      ⟨(s.store.get b).children, Table.get?_eq_some_iff.2 he⟩
  | @linked b entry v key names known reference children handle =>
    refine .linked names (r.references ▸ known) (same ▸ reference) ?_ (same ▸ handle)
    rw [same, children, r.entries key entry known]
  | quoted unknown reference value =>
    exact .quoted (r.references ▸ unknown) (same ▸ reference) (same ▸ value)
  | bare unknown reference value =>
    exact .bare (r.references ▸ unknown) (same ▸ reference) (same ▸ value)
  | array reference value => exact .array (same ▸ reference) (same ▸ value)

theorem HoldsFields.retained {entries : List (String × BindingId)}
    {fields : List (String × Literal)} (h : s.HoldsFields own entries fields) (hs : s.Sound)
    (r : s.Retains own s') (weaken : ∀ c, own c → own' c)
    (placed : ∀ e ∈ entries, ∃ c, s.slot? (.field c e.1) = some e.2) :
    s'.HoldsFields own' entries fields := by
  cases h with
  | nil => exact .nil
  | cons called value rest =>
    obtain ⟨c, hc⟩ := placed _ List.mem_cons_self
    have same := r.children c _ _ hc
    exact .cons (same ▸ called) (value.retained hs r weaken (hs.has hc) same)
      (rest.retained hs r weaken fun e he => placed e (List.mem_cons_of_mem _ he))

end

theorem HoldsFields.weaken {b : BindingId} {entries : List (String × BindingId)}
    {fields : List (String × Literal)} (h : s.HoldsFields own entries fields) (hs : s.Sound)
    (he : ∀ e ∈ entries, e ∈ (s.store.children b).entries) (weaken : ∀ c, own c → own' c) :
    s.HoldsFields own' entries fields :=
  h.retained hs (.refl s) weaken fun e hm =>
    ⟨(s.store.get b).children, Table.get?_eq_some_iff.2 (he e hm)⟩

end Grows

/-! ## Parts of decoding -/

section Parts

variable {s : State} {b child parent entry : BindingId}

theorem grows_modify (s : State) (b : BindingId) (f : Binding → Binding) :
    s.Grows (· = b) (fun _ => False) (s.mapStore (·.modify b f)) where
  references := rfl
  has c hc := (s.store.has_modify b f c).2 hc
  hasCollection _ hc := hc
  get _ _ hn := Store.get_modify_of_ne f hn
  collection _ _ _ := rfl

theorem grows_ensureHandle (s : State) (b : BindingId) :
    s.Grows (· = b) (fun _ => False) (s.ensureHandle b) where
  references := references_ensureHandle s b
  has c hc := ((samePlaces_ensureHandle s b).has c).2 hc
  hasCollection c hc := ((samePlaces_ensureHandle s b).hasCollection c).2 hc
  get _ _ hn := get_ensureHandle_of_ne hn
  collection c _ _ := (samePlaces_ensureHandle s b).tables c

theorem isSome_handle_ensureHandle (hb : s.store.Has b) :
    ((s.ensureHandle b).store.get b).handle.isSome := by
  unfold ensureHandle
  split
  · next h => simp [h]
  · simp [Store.get_modify_self _ hb]

theorem grows_cleared (s : State) (b : BindingId) :
    s.Grows (· = b) (fun _ => False) ((s.mapStore (·.setValue b "")).ensureHandle b) :=
  (s.grows_modify b _).trans (grows_ensureHandle _ b) (fun _ _ => id) fun _ _ => id

theorem get_cleared {α : Type} (hb : s.store.Has b) (p : Binding → α)
    (hp : ∀ (a : Binding) h, p { a with handle := h } = p a) :
    p (((s.mapStore (·.setValue b "")).ensureHandle b).store.get b) =
      p { s.store.get b with value := "" } := by
  rw [get_ensureHandle _ b p hp, mapStore, Store.setValue, Store.get_modify_self _ hb]

/-- A missing child, made: a blank binding with a collection of its own. -/
structure Bears (s : State) (parent : BindingId) (name : String) (child : BindingId)
    (s' : State) : Prop where
  sound : s'.Sound
  fresh : ¬ s.store.Has child
  grows : s.Grows (fun _ => False) (· = (s.store.get parent).children) s'
  slot : s'.slot? (.field (s.store.get parent).children name) = some child
  called : (s'.store.get child).name = name
  reference : (s'.store.get child).reference = none
  apart : ¬ s.store.HasCollection (s'.store.get child).children
  childless : s'.store.children child = .empty
  table : s'.store.collection (s.store.get parent).children =
    (s.store.children parent).insert name child

theorem bears_childOrCreate (hs : s.Sound) (hp : s.store.Has parent) {name : String}
    (vacant : s.store.child? parent name = none) :
    s.Bears parent name (s.childOrCreate parent name).1 (s.childOrCreate parent name).2 := by
  have hc := hs.hasCollection hp
  have w := write_childOrCreate hs hp vacant
  have hslot := (slot?_childOrCreate hc name _).trans (if_pos rfl)
  have hcollection := (s.store.hasCollection_create name "" "" (s.store.get parent).children).2
    (.inl hc)
  have hget := s.store.get_create_self name "" ""
  have hnew : s.childOrCreate parent name = ((s.store.create name "" "").1,
      s.mapStore fun store => (store.create name "" "").2.modifyCollection
        (s.store.get parent).children (·.insert name (s.store.create name "" "").1)) := by
    simp only [childOrCreate, s.store.childOrCreate_of_none parent name vacant, mapStore]
  have hown : ¬ s.store.HasCollection ⟨s.store.collections.size⟩ := Nat.lt_irrefl _
  rw [hnew] at w hslot ⊢
  refine
    { sound := w.sound hs
      fresh := s.store.not_has_create name "" ""
      grows := ⟨rfl, fun c h => (s.store.has_create name "" "" c).2 (.inl h), fun c h => ?_,
        fun c h _ => ?_, fun c _ hn => ?_⟩
      slot := hslot
      called := ?_
      reference := ?_
      apart := ?_
      childless := ?_
      table := ?_ }
  all_goals simp only [mapStore, Store.children, Store.get_modifyCollection, hget]
  · rw [Store.hasCollection_modifyCollection]
    exact (s.store.hasCollection_create name "" "" c).2 (.inl h)
  · exact s.store.get_create_of_ne name "" "" fun e => s.store.not_has_create name "" "" (e ▸ h)
  · rw [Store.collection_modifyCollection_of_ne _ hn, Store.collection_create]
  · exact hown
  · rw [Store.collection_modifyCollection_of_ne, Store.collection_create,
      s.store.collection_of_not_has hown]
    exact fun e => hown (e ▸ hc)
  · rw [Store.collection_modifyCollection_self _ hcollection, Store.collection_create]

theorem grows_link (s : State) (child entry : BindingId) (key : String) :
    s.Grows (· = child) (fun _ => False) (s.link child entry key) :=
  ((s.grows_modify child _).trans (grows_modify _ child _) (fun _ _ => id) fun _ _ => id).trans
    (grows_ensureHandle _ child) (fun _ _ => id) fun _ _ => id

theorem get_link (hb : s.store.Has child) (entry : BindingId) (key : String) :
    ((s.link child entry key).store.get child).reference = some key ∧
      ((s.link child entry key).store.get child).children = (s.store.get entry).children ∧
      ((s.link child entry key).store.get child).handle.isSome ∧
      ((s.link child entry key).store.get child).name = (s.store.get child).name := by
  have hb' : (s.store.share child entry).Has child := (Store.has_modify ..).2 hb
  unfold link
  refine ⟨?_, ?_, isSome_handle_ensureHandle ((Store.has_modify ..).2 hb'), ?_⟩
  · rw [get_ensureHandle _ child Binding.reference fun _ _ => rfl, Store.get_modify_self _ hb']
  · rw [get_ensureHandle _ child Binding.children fun _ _ => rfl, Store.get_modify_self _ hb',
      Store.get_share_self hb]
  · rw [get_ensureHandle _ child Binding.name fun _ _ => rfl, Store.get_modify_self _ hb',
      Store.get_share_self hb]

/-- What decoding a value into a blank binding has to leave behind. -/
structure Fills (s : State) (child : BindingId) (v : Literal) (s' : State) : Prop where
  grows : s.Grows (· = child) (· = (s.store.get child).children) s'
  called : (s'.store.get child).name = (s.store.get child).name
  holds : s'.Holds (fun c => c = (s.store.get child).children ∨ ¬ s.store.HasCollection c) child v

section Bears

variable {name : String} {v : Literal} {s₁ s₂ s₃ : State}

theorem Bears.grows_fills (born : s.Bears parent name child s₁) (fills : s₁.Fills child v s₂) :
    s.Grows (fun _ => False) (· = (s.store.get parent).children) s₂ :=
  born.grows.trans fills.grows (fun _ hb e => born.fresh (e ▸ hb)) fun _ hc e =>
    absurd (e ▸ hc) born.apart

theorem Bears.children_fills (born : s.Bears parent name child s₁) (fills : s₁.Fills child v s₂)
    (hs : s.Sound) (hp : s.store.Has parent) :
    s₂.store.children parent = (s.store.children parent).insert name child := by
  have hc := hs.hasCollection hp
  have hne : (s.store.get parent).children ≠ (s₁.store.get child).children := fun e =>
    born.apart (e ▸ hc)
  rw [Store.children, (born.grows_fills fills).get parent hp id,
    fills.grows.collection _ (born.grows.hasCollection _ hc) hne, born.table]

theorem Bears.holds_fills (born : s.Bears parent name child s₁) (fills : s₁.Fills child v s₂)
    (hs : s.Sound) (hp : s.store.Has parent) (hs₂ : s₂.Sound)
    (growth : s₂.Grows (fun _ => False) (· = (s.store.get parent).children) s₃) :
    (s₃.store.get child).name = name ∧
      s₃.Holds (fun c => ¬ s.store.HasCollection c) child v := by
  have hc := hs.hasCollection hp
  have hchild : s₂.store.Has child := fills.grows.has child (born.sound.has born.slot)
  have same := growth.get child hchild id
  refine ⟨by rw [same, fills.called, born.called],
    fills.holds.retained hs₂ (growth.retains hs₂ ?_) ?_ hchild same⟩
  · rintro c (rfl | hn) e
    · exact born.apart (e ▸ hc)
    · exact hn (born.grows.hasCollection c (e ▸ hc))
  · rintro c (rfl | hn) h
    · exact born.apart h
    · exact hn (born.grows.hasCollection c h)

end Bears

theorem fills_link (hs : s.Sound) {c : CollectionId} {name : String}
    (hx : s.slot? (.field c name) = some child) {v : Literal} {key : String}
    (names : v = .quoted key ∨ v = .bare key) (known : s.references.get? key = some entry) :
    s.Fills child v (s.link child entry key) := by
  have grows := s.grows_link child entry key
  obtain ⟨hreference, hchildren, hhandle, hname⟩ := get_link (hs.has hx) entry key
  have he : s.slot? (.object key) = some entry := known
  have hne : entry ≠ child := by
    rintro rfl
    cases hs.unique hx he
  refine ⟨grows.mono (fun _ => id) fun _ => False.elim, hname,
    .linked names (grows.references ▸ known) hreference ?_ hhandle⟩
  rw [hchildren, grows.get entry (hs.has he) hne]

theorem fills_setValue (hs : s.Sound) {c : CollectionId} {name : String}
    (hx : s.slot? (.field c name) = some child) (reference : (s.store.get child).reference = none)
    {v : Literal} (text : String)
    (holds : ∀ {t : State} {own : CollectionId → Prop}, t.references = s.references →
      (t.store.get child).reference = none → (t.store.get child).value = text →
        t.Holds own child v) :
    s.Fills child v (s.mapStore (·.setValue child text)) := by
  have grows := s.grows_modify child fun binding => { binding with value := text }
  have hget := Store.get_modify_self (fun binding => { binding with value := text }) (hs.has hx)
  refine ⟨grows.mono (fun _ => id) fun _ => False.elim, ?_, holds rfl ?_ ?_⟩
  all_goals simp only [mapStore, Store.setValue, hget, reference]

/-- The text of a string or a token makes an alias of the object known by it, or is shown. -/
theorem fills_decodeLeaf (hs : s.Sound) {c : CollectionId} {name : String}
    (hx : s.slot? (.field c name) = some child) (reference : (s.store.get child).reference = none)
    {v : Literal} {text : String} (names : v = .quoted text ∨ v = .bare text)
    (shown : ∀ {t : State} {own : CollectionId → Prop}, t.references.get? text = none →
      (t.store.get child).reference = none → (t.store.get child).value = v.display →
        t.Holds own child v) :
    s.Fills child v (s.decodeLeaf child v) := by
  have hkey : v.key? = some text := by rcases names with rfl | rfl <;> rfl
  unfold decodeLeaf knownObject?
  rw [hkey, Option.bind_some]
  cases known : s.references.get? text with
  | some entry => exact fills_link hs hx names known
  | none => exact fills_setValue hs hx reference v.display fun h => shown (h ▸ known)

end Parts

/-! ## Decoding -/

theorem Sound.decodeInto {s : State} {c : CollectionId} {name : String} {child : BindingId}
    (hs : s.Sound) (hx : s.slot? (.field c name) = some child) (v : Literal) :
    (s.decodeInto child v).Sound :=
  (decodeInto_writes (P := fun _ => True) hs hx v fun _ _ _ => trivial).sound hs

theorem Sound.decodeFields {s : State} {parent : BindingId} (hs : s.Sound)
    (hp : s.store.Has parent) (fields : List (String × Literal)) :
    (s.decodeFields parent fields).Sound :=
  (decodeFields_writes (P := fun _ => True) hs hp fields fun _ _ _ => trivial).sound hs

mutual

theorem fills_decodeInto {s : State} {c : CollectionId} {name : String} {child : BindingId}
    (hs : s.Sound) (hx : s.slot? (.field c name) = some child)
    (reference : (s.store.get child).reference = none)
    (childless : s.store.children child = .empty) (v : Literal) (hv : v.Distinct) :
    s.Fills child v (s.decodeInto child v) := by
  match v with
  | .object fields =>
    rw [decodeInto]
    have hb := hs.has hx
    -- the binding is cleared and gets a handle before its fields are written
    have w := setValue_writes (P := fun _ => True) hs hx "" trivial
    have w' := w.trans (ensureHandle_writes (w.sound hs) (w.slot_of_some hx) trivial)
    have hb' := w'.has hb
    have clear := s.grows_cleared child
    have get := fun {α} p hp => get_cleared (α := α) hb p hp
    have handle := isSome_handle_ensureHandle (s := s.mapStore (·.setValue child ""))
      ((Store.has_modify ..).2 hb)
    generalize (s.mapStore (·.setValue child "")).ensureHandle child = s' at *
    have hchildren : (s'.store.get child).children = (s.store.get child).children :=
      get Binding.children fun _ _ => rfl
    have htable : s'.store.children child = .empty := by
      rw [Store.children, hchildren, clear.collection _ (hs.hasCollection hb) id]
      exact childless
    obtain ⟨grows, entries, hentries, holds⟩ := holds_decodeFields (w'.sound hs) hb' fields
      (fun name _ => by rw [Store.child?, htable, Table.get?_empty]) hv.1 hv.2
    have hsound := (w'.sound hs).decodeFields hb' fields
    have hget := grows.get child hb' id
    rw [hchildren] at grows
    rw [htable] at hentries
    refine ⟨(clear.mono (fun _ => id) fun _ => False.elim).trans grows (fun _ _ => False.elim)
      fun _ _ => id, ?_, .object ?_ ?_ ?_ ?_ ?_⟩
    · rw [hget, get Binding.name fun _ _ => rfl]
    · rw [hget, get Binding.value fun _ _ => rfl]
    · rw [hget]
      exact handle
    · rw [hget, get Binding.reference fun _ _ => rfl]
      exact reference
    · rw [hget, hchildren]
      exact .inl rfl
    · rw [hentries]
      exact holds.weaken hsound (b := child) (fun e he => by rwa [hentries]) fun c hc =>
        .inr fun h => hc (clear.hasCollection c h)
  | .quoted text =>
    rw [decodeInto]
    exact fills_decodeLeaf hs hx reference (.inl rfl) .quoted
  | .bare text =>
    rw [decodeInto]
    exact fills_decodeLeaf hs hx reference (.inr rfl) .bare
  | .array text =>
    rw [decodeInto]
    exact fills_setValue hs hx reference text fun _ => .array

/-- **What decoding fields leaves behind**: they come behind the children that are there, each in a
new binding. -/
theorem holds_decodeFields {s : State} {parent : BindingId} (hs : s.Sound)
    (hp : s.store.Has parent) (fields : List (String × Literal))
    (vacant : ∀ name ∈ fields.map Prod.fst, s.store.child? parent name = none)
    (names : (fields.map Prod.fst).Nodup) (hf : Literal.DistinctFields fields) :
    s.Grows (fun _ => False) (· = (s.store.get parent).children) (s.decodeFields parent fields) ∧
      ∃ entries, ((s.decodeFields parent fields).store.children parent).entries =
          (s.store.children parent).entries ++ entries ∧
        (s.decodeFields parent fields).HoldsFields (fun c => ¬ s.store.HasCollection c) entries
          fields := by
  match fields with
  | [] =>
    rw [decodeFields]
    exact ⟨.refl s, [], (List.append_nil _).symm, .nil⟩
  | (name, v) :: fields =>
    rw [List.map_cons, List.forall_mem_cons] at vacant
    rw [List.map_cons, List.nodup_cons] at names
    have born := bears_childOrCreate hs hp vacant.1
    rcases hchild : s.childOrCreate parent name with ⟨child, s₁⟩
    rw [hchild] at born
    rw [decodeFields, hchild]
    have fills := fills_decodeInto born.sound born.slot born.reference born.childless v hf.1
    have hs₂ := born.sound.decodeInto born.slot v
    dsimp only
    generalize s₁.decodeInto child v = s₂ at *
    have grows := born.grows_fills fills
    have table := born.children_fills fills hs hp
    have hp₂ := grows.has parent hp
    obtain ⟨growth, entries, hentries, holds⟩ := holds_decodeFields hs₂ hp₂ fields
      (fun n hn => by
        have hne : n ≠ name := fun e => names.1 (e ▸ hn)
        rw [Store.child?, table, Table.get?_insert, if_neg hne]
        exact vacant.2 n hn) names.2 hf.2
    have hs₃ := hs₂.decodeFields hp₂ fields
    rw [grows.get parent hp id] at growth
    rw [table, Table.entries_insert_of_none vacant.1, List.append_assoc] at hentries
    obtain ⟨called, value⟩ := born.holds_fills fills hs hp hs₂ growth
    refine ⟨grows.trans growth (fun _ _ => id) fun _ _ => id, (name, child) :: entries, hentries,
      .cons called value ?_⟩
    exact holds.weaken hs₃ (b := parent) (fun e he => hentries ▸ by simp [he]) fun c hn h =>
      hn (grows.hasCollection c h)

end

/-! ## Assigning an object -/

/-- Between two states, `key` came to stand for an object with the given fields, and the variable
`b` was bound to it. -/
structure Takes (s : State) (b entry : BindingId) (key : String)
    (fields : List (String × Literal)) (s' : State) : Prop where
  /-- The object is known behind the assignment, and no other one is known more or less. -/
  known : s'.references.get? key = some entry
  others : ∀ k, k ≠ key → s'.references.get? k = s.references.get? k
  /-- The variable refers to the object, is expandable and shows no text of its own. -/
  reference : (s'.store.get b).reference = some key
  handle : (s'.store.get b).handle.isSome
  value : (s'.store.get b).value = ""
  children : (s'.store.get b).children = (s'.store.get entry).children
  /-- The children of the object are the fields, and what is in objects among them is in new
  collections. -/
  fields : s'.HoldsFields
    (fun c => ¬ s.store.HasCollection c ∧ c ≠ (s'.store.get entry).children)
    (s'.store.children entry).entries fields

section Assign

variable {s : State} {b entry : BindingId} {key leaf : String}

theorem references_join (s : State) (b entry : BindingId) (key leaf : String) :
    (s.join b entry key leaf).references = s.references := by
  unfold join
  split
  · rfl
  · exact references_ensureHandle _ b

theorem view_join (hb : s.store.Has b) (entry : BindingId) (key : String)
    (h : ¬ (leaf = "this" ∧ (s.store.get b).reference.isSome)) :
    ((s.join b entry key leaf).store.get b).value = (s.store.get entry).value ∧
      ((s.join b entry key leaf).store.get b).handle.isSome := by
  have hb' : (s.store.share b entry).Has b := (Store.has_modify ..).2 hb
  rw [join, if_neg h]
  refine ⟨?_, isSome_handle_ensureHandle ((Store.has_modify ..).2 hb')⟩
  rw [get_ensureHandle _ b Binding.value fun _ _ => rfl, Store.get_modify_self _ hb']

theorem children_referenceEntry (new : s.references.get? key = none) :
    (s.referenceEntry key).2.store.children (s.referenceEntry key).1 = .empty := by
  have hown : ¬ s.store.HasCollection ⟨s.store.collections.size⟩ := Nat.lt_irrefl _
  simp only [referenceEntry, new, createBlank, Store.children, Store.collection_modify,
    Store.collection_create]
  rw [Store.get_modify_self _ ((s.store.has_create "" "" "" _).2 (.inr rfl)),
    Store.get_create_self, s.store.collection_of_not_has hown]

theorem SamePlaces.retains {s' : State} {own : CollectionId → Prop} {x : Slot}
    (same : s.SamePlaces s') (hs : s.Sound) (references : s'.references = s.references)
    (hx : s.slot? x = some b) (noField : ∀ c name, x ≠ .field c name)
    (others : ∀ c, c ≠ b → s'.store.get c = s.store.get c)
    (children : ∀ key, x = .object key → (s'.store.get b).children = (s.store.get b).children) :
    s.Retains own s' where
  references := references
  entries key entry he := by
    by_cases h : entry = b
    · subst h
      exact children key (hs.unique hx he)
    · rw [others entry h]
  children c name d hd := others d fun e => noField c name (hs.unique hx (e ▸ hd))
  tables c _ _ := same.tables c

theorem retains_join (hs : s.Sound) {own : CollectionId → Prop} {x : Slot} (hx : x.IsVariable)
    (hb : s.slot? x = some b) (entry : BindingId) (key : String)
    (free : ¬ (leaf = "this" ∧ (s.store.get b).reference.isSome)) :
    s.Retains own (s.join b entry key leaf) := by
  obtain ⟨same, others, -⟩ := get_join (hs.has hb) entry key free
  refine same.retains hs (references_join ..) hb ?_ others fun k e => absurd e (hx.ne_object k)
  rintro c n rfl
  exact hx

theorem holds_assignObject (hs : s.Sound) {fields : List (String × Literal)}
    (he : s.slot? (.object key) = some entry) (childless : s.store.children entry = .empty)
    (distinct : (Literal.object fields).Distinct) :
    let s' := s.assignObject entry (.object fields)
    s.Grows (· = entry) (· = (s.store.get entry).children) s' ∧
      (s'.store.get entry).value = "" ∧
      (s'.store.get entry).children = (s.store.get entry).children ∧
      s'.HoldsFields (fun c => ¬ s.store.HasCollection c) (s'.store.children entry).entries
        fields := by
  have hb := hs.has he
  obtain ⟨grows, entries, hentries, holds⟩ := holds_decodeFields hs hb fields
    (fun name _ => by rw [Store.child?, childless, Table.get?_empty]) distinct.1 distinct.2
  have w := decodeFields_writes (P := fun _ => True) hs hb fields fun _ _ _ => trivial
  have hget := grows.get entry hb id
  have hb' := w.has hb
  rw [childless] at hentries
  have he' := w.slot_of_some he
  have hs' := w.sound hs
  dsimp only [assignObject]
  generalize s.decodeFields entry fields = s' at *
  -- clearing the entry changes its text only
  have clear := s'.grows_modify entry fun binding => { binding with value := "" }
  have children : ((s'.mapStore (·.setValue entry "")).store.get entry).children =
      (s'.store.get entry).children :=
    Store.get_modify_field (fun binding => { binding with value := "" }) Binding.children
      (fun _ => rfl) entry
  have table : (s'.mapStore (·.setValue entry "")).store.children entry =
      s'.store.children entry := by rw [Store.children, children]; rfl
  have r : s'.Retains (fun c => ¬ s.store.HasCollection c) (s'.mapStore (·.setValue entry "")) :=
    (s'.samePlaces_modify entry _ s'.handles).retains hs' rfl he' (by simp)
      (fun c hc => Store.get_modify_of_ne _ hc) fun _ _ => children
  refine ⟨(grows.mono (fun _ => False.elim) fun _ => id).trans clear (fun _ _ => id)
    fun _ _ => False.elim, congrArg Binding.value (Store.get_modify_self _ hb'), ?_, ?_⟩
  · rw [children, hget]
  · rw [table, hentries]
    exact holds.retained hs' r (fun _ => id) fun e he =>
      ⟨(s'.store.get entry).children, Table.get?_eq_some_iff.2 (hentries ▸ he)⟩

/-- An object that is assigned to a variable is written into the entry of its key, which the
variable then joins. -/
theorem assign_of_object {a : Assignment} {fields : List (String × Literal)}
    (reference : a.reference = some key) (target : s.assigned a = .variable b)
    (single : TypeName.isCollection (s.store.get b).typeName = false)
    (value : Literal.parse a.value = .object fields) :
    s.assign a =
      ((s.referenceEntry key).2.assignObject (s.referenceEntry key).1 (.object fields)).join b
        (s.referenceEntry key).1 key (Text.ownerAndLeaf a.name).2 := by
  have hraw : s.showsRaw b (.object fields) = false := by
    unfold showsRaw
    rw [single]
    rfl
  rw [assign_of_key reference, target, value]
  exact if_neg (ne_true_of_eq_false hraw)

/-- **Assigning an object to a variable makes it known** under a new key, with the fields as its
children, and binds the variable to it. -/
theorem takes_assign (hs : s.Sound) {a : Assignment} {fields : List (String × Literal)}
    (reference : a.reference = some key) (new : s.references.get? key = none)
    (target : s.assigned a = .variable b)
    (single : TypeName.isCollection (s.store.get b).typeName = false)
    (free : ¬ ((Text.ownerAndLeaf a.name).2 = "this" ∧ (s.store.get b).reference.isSome))
    (value : Literal.parse a.value = .object fields) (distinct : (Literal.object fields).Distinct) :
    ∃ entry, s.Takes b entry key fields (s.assign a) := by
  obtain ⟨x, hx, hb, -⟩ := slot?_of_assignee target
  have childless := children_referenceEntry new
  have get₁ := get_referenceEntry (hs.has hb) key
  have hslot := slot?_referenceEntry s key
  have w := write_referenceEntry new
  rw [assign_of_object reference target single value]
  generalize (Text.ownerAndLeaf a.name).2 = leaf at *
  generalize s.referenceEntry key = r at *
  obtain ⟨entry, s₁⟩ := r
  dsimp only at *
  -- behind looking up the entry, the variable is where it was
  have hs₁ := w.sound hs
  have he₁ : s₁.slot? (.object key) = some entry := (hslot _).trans (if_pos rfl)
  have hb₁ : s₁.slot? x = some b := by rw [hslot, if_neg (hx.ne_object key), hb]
  have hne : b ≠ entry := fun e => hx.ne_object key (hs₁.unique (e ▸ hb₁) he₁)
  obtain ⟨grows, empty, hentry, holds⟩ := holds_assignObject hs₁ he₁ childless distinct
  have w₂ := assignObject_writes (P := fun _ => True) hs₁ he₁ (.object fields) trivial
    (fun _ _ _ => trivial) fun _ _ _ _ => trivial
  have hs₂ := w₂.sound hs₁
  have hb₂ := w₂.slot_of_some hb₁
  have get₂ := (grows.get b (hs₁.has hb₁) hne).trans get₁
  generalize s₁.assignObject entry (.object fields) = s₂ at *
  rw [← get₂] at free
  obtain ⟨same, others, hreference, hchildren⟩ := get_join (hs₂.has hb₂) entry key free
  obtain ⟨hvalue, hhandle⟩ := view_join (hs₂.has hb₂) entry key free
  have get' := others entry hne.symm
  have table : (s₂.join b entry key leaf).store.children entry = s₂.store.children entry := by
    rw [Store.children, get', same.tables]
    rfl
  refine ⟨entry, (same.slots (.object key)).trans (w₂.slot_of_some he₁), fun k hk => ?_, hreference,
    hhandle, hvalue.trans empty, by rw [hchildren, get'], ?_⟩
  · refine (same.slots (.object k)).trans ?_
    have h := hslot (.object k)
    rw [if_neg fun e => hk (Slot.object.inj e)] at h
    exact (congrArg (·.get? k) grows.references).trans h
  · rw [table]
    refine holds.retained hs₂ (retains_join hs₂ hx hb₂ entry key free)
      (fun c hc => ⟨fun h => hc ?_, fun e => hc ?_⟩) fun e he => ⟨_, Table.get?_eq_some_iff.2 he⟩
    · cases w with
      | place _ new => exact new.hasCollection c h
    · rw [e, get', hentry]
      exact hs₁.hasCollection (hs₁.has he₁)

end Assign

end State

end Retrace
