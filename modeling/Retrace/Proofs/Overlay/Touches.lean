import Retrace.Proofs.State.Edits

/-!
# Touches of a state

An overlay may be of any snapshot: its addresses may occur twice, refer to each other in circles, or
be known to the log already. It touches the state in a few ways all the same: a binding gets another
text, type or handle, a child or the binding of an object is looked up or made, a child or variable
becomes a plain value or refers to a known object, an object loses its children, and a trigger
variable is made. What these touches keep, every overlay keeps.

* `State.Orderly`: no id dangles, and the entries of objects are neither children nor variables.
* `State.Touch`, `State.Touches`: the touches, and sequences of them.
* **`State.Touch.orderly`**: they keep states orderly.
-/

namespace Retrace

namespace Store

theorem modify_modify (s : Store) (b : BindingId) (f g : Binding → Binding) :
    (s.modify b f).modify b g = s.modify b (g ∘ f) := by
  have h : (s.bindings.modify b.index f).modify b.index g = s.bindings.modify b.index (g ∘ f) := by
    refine Array.ext (by simp) fun i hi hi' => ?_
    simp only [Array.getElem_modify]
    split <;> rfl
  exact congrArg (fun bindings => { s with bindings }) h

section Whole

variable {s : Store} {b : BindingId}

/-- The bindings hold collections of the store. -/
def Whole (s : Store) : Prop := ∀ b, s.Has b → s.HasCollection (s.get b).children

theorem Whole.modify (h : s.Whole) (b : BindingId) {f : Binding → Binding}
    (children : s.Has b → s.HasCollection (f (s.get b)).children) : (s.modify b f).Whole := by
  intro c hc
  rw [has_modify] at hc
  rw [hasCollection_modify]
  by_cases hcb : c = b
  · subst hcb
    rw [get_modify_self f hc]
    exact children hc
  · rw [get_modify_of_ne f hcb]
    exact h c hc

theorem Whole.create (h : s.Whole) (name type value : String) :
    (s.create name type value).2.Whole := by
  intro c hc
  rw [hasCollection_create]
  by_cases hnew : c = (s.create name type value).1
  · subst hnew
    rw [get_create_self]
    exact .inr rfl
  · rw [get_create_of_ne _ _ _ _ hnew]
    exact .inl (h c (((s.has_create name type value c).1 hc).resolve_right hnew))

theorem Whole.modifyCollection (h : s.Whole) (c : CollectionId)
    (f : Table BindingId → Table BindingId) : (s.modifyCollection c f).Whole := fun b hb =>
  (hasCollection_modifyCollection ..).2 (h b hb)

theorem Whole.detach (h : s.Whole) (b : BindingId) : (s.detach b).Whole := by
  have grown : ({ s with collections := s.collections.push .empty } : Store).Whole := by
    intro c hc
    have hold : s.HasCollection (s.get c).children := h c hc
    show (s.get c).children.index < (s.collections.push .empty).size
    rw [Array.size_push]
    exact Nat.lt_succ_of_lt hold
  refine grown.modify b fun _ => ?_
  show s.collections.size < (s.collections.push Table.empty).size
  rw [Array.size_push]
  exact Nat.lt_succ_self _

end Whole

end Store

namespace State

variable {s s' s'' : State} {b : BindingId}

/-! ## Orderly states -/

/-- No id dangles: bindings in places are of the store, and so are their collections. -/
structure Closed (s : State) : Prop where
  has : ∀ {x b}, s.slot? x = some b → s.store.Has b
  whole : s.store.Whole

/-- The entries of objects are neither children nor variables. -/
def Apart (s : State) : Prop :=
  ∀ {key x b}, s.references.get? key = some b → s.slot? x = some b → ∃ k, x = .object k

structure Orderly (s : State) : Prop extends s.Closed where
  apart : s.Apart

theorem Sound.orderly (hs : s.Sound) : s.Orderly where
  has := hs.has
  whole _ := hs.hasCollection
  apart {key _ _} he hx := ⟨key, hs.unique hx he⟩

theorem Orderly.inner (h : s.Orderly) {x : Slot} (hx : s.slot? x = some b)
    (noEntry : ∀ key, x ≠ .object key) : s.Inner b where
  has := h.has hx
  noEntry key he := by
    obtain ⟨k, rfl⟩ := h.apart he hx
    exact noEntry k rfl

/-! ## Touches -/

/-- Another name, type and text, or another reference. -/
structure Labels (f : Binding → Binding) : Prop where
  handle : ∀ a, (f a).handle = a.handle := by exact fun _ => rfl
  children : ∀ a, (f a).children = a.children := by exact fun _ => rfl

/-- The ways in which overlays touch a state. -/
inductive Touch (s : State) : State → Prop
  /-- A binding gets another name, type or text. -/
  | relabel (b : BindingId) {f : Binding → Binding} (labels : Labels f)
      (reference : ∀ a, (f a).reference = a.reference) : s.Touch (s.mapStore (·.modify b f))
  | number {b : BindingId} (has : s.store.Has b) : s.Touch (s.ensureHandle b)
  | child {parent : BindingId} (has : s.store.Has parent) (name : String) :
      s.Touch (s.childOrCreate parent name).2
  /-- A child or variable leaves the object that it refers to. -/
  | leave {b : BindingId} (inner : s.Inner b) {f : Binding → Binding} (labels : Labels f)
      (reference : ∀ a, (f a).reference = none) :
      s.Touch (s.mapStore fun store => (store.detach b).modify b f)
  /-- A child or variable refers to a known object. -/
  | link {b entry : BindingId} {key : String} (inner : s.Inner b)
      (known : s.references.get? key = some entry) {f : Binding → Binding} (labels : Labels f)
      (reference : ∀ a, (f a).reference = some key) :
      s.Touch (s.mapStore fun store => (store.share b entry).modify b f)
  /-- The binding of an object is looked up or made, and labelled with its key. -/
  | object (key : String) {f : Binding → Binding} (labels : Labels f)
      (reference : ∀ a, (f a).reference = some key) :
      s.Touch ((s.referenceEntry key).2.mapStore (·.modify (s.referenceEntry key).1 f))
  | clear (b : BindingId) : s.Touch (s.mapStore (·.clear b))
  | create (name type value : String) :
      s.Touch (s.mapStore fun store => (store.create name type value).2)
  /-- A trigger variable gets a binding that is in no place. -/
  | global {b : BindingId} (has : s.store.Has b) (unplaced : ∀ x, s.slot? x ≠ some b)
      (name : String) : s.Touch (s.insertGlobal name b)

theorem slot?_child (h : s.Closed) {parent : BindingId} (hp : s.store.Has parent) (name : String) :
    (s.childOrCreate parent name).2.slot? (.field (s.store.get parent).children name) =
      some (s.childOrCreate parent name).1 :=
  (slot?_childOrCreate (h.whole parent hp) name _).trans (if_pos rfl)

theorem childOrCreate_cases (s : State) (parent : BindingId) (name : String) :
    ((s.childOrCreate parent name).2 = s ∧
      s.slot? (.field (s.store.get parent).children name) = some (s.childOrCreate parent name).1) ∨
    ((s.childOrCreate parent name).1 = (s.store.create name "" "").1 ∧
      (s.childOrCreate parent name).2 = s.mapStore fun store =>
        (store.create name "" "").2.modifyCollection (s.store.get parent).children
          (·.insert name (s.store.create name "" "").1)) := by
  cases h : s.store.child? parent name with
  | some c =>
    have hc : s.childOrCreate parent name = (c, s) := by
      simp only [childOrCreate, s.store.childOrCreate_of_some parent name h]
    rw [hc]
    exact .inl ⟨rfl, h⟩
  | none =>
    have hnew := s.store.childOrCreate_of_none parent name h
    exact .inr ⟨congrArg Prod.fst hnew, congrArg (fun p => { s with store := p.2 }) hnew⟩

theorem referenceEntry_cases (s : State) (key : String) :
    ((s.referenceEntry key).2 = s ∧ s.references.get? key = some (s.referenceEntry key).1) ∨
    (s.references.get? key = none ∧ (s.referenceEntry key).1 = (s.store.create "" "" "").1 ∧
      (s.referenceEntry key).2 =
        { s with
          store := (s.store.create "" "" "").2.modify (s.store.create "" "" "").1 fun binding =>
            { binding with reference := some key }
          references := s.references.insert key (s.store.create "" "" "").1 }) := by
  cases h : s.references.get? key with
  | some entry =>
    have hentry : s.referenceEntry key = (entry, s) := by simp only [referenceEntry, h]
    rw [hentry]
    exact .inl ⟨rfl, rfl⟩
  | none =>
    refine .inr ⟨rfl, ?_, ?_⟩ <;> simp only [referenceEntry, h, createBlank]

theorem not_slot?_create (h : s.Closed) (name type value : String) (x : Slot) :
    s.slot? x ≠ some (s.store.create name type value).1 := fun hx =>
  s.store.not_has_create name type value (h.has hx)

theorem has_childOrCreate (h : s.Closed) (parent : BindingId) (name : String) :
    (s.childOrCreate parent name).2.store.Has (s.childOrCreate parent name).1 := by
  rcases s.childOrCreate_cases parent name with ⟨hsame, hold⟩ | ⟨hfst, hnew⟩
  · rw [hsame]
    exact h.has hold
  · rw [hnew, hfst]
    exact (Store.has_modifyCollection ..).2 ((Store.has_create ..).2 (.inr rfl))

theorem has_referenceEntry (h : s.Closed) (key : String) :
    (s.referenceEntry key).2.store.Has (s.referenceEntry key).1 := by
  rcases s.referenceEntry_cases key with ⟨hsame, hold⟩ | ⟨-, hfst, hnew⟩
  · rw [hsame]
    exact h.has (x := .object key) hold
  · rw [hnew, hfst]
    exact (Store.has_modify ..).2 ((Store.has_create ..).2 (.inr rfl))

namespace Touch

theorem has (t : s.Touch s') (hb : s.store.Has b) : s'.store.Has b := by
  cases t with
  | relabel => exact (Store.has_modify ..).2 hb
  | number => exact ((s.samePlaces_ensureHandle _).has b).2 hb
  | @child parent _ name =>
    rcases s.childOrCreate_cases parent name with ⟨hsame, -⟩ | ⟨-, hnew⟩
    · rwa [hsame]
    · rw [hnew]
      exact (Store.has_modifyCollection ..).2 ((Store.has_create ..).2 (.inl hb))
  | leave => exact (Store.has_modify ..).2 ((Store.has_modify ..).2 hb)
  | link => exact (Store.has_modify ..).2 ((Store.has_modify ..).2 hb)
  | object key =>
    refine (Store.has_modify ..).2 ?_
    rcases s.referenceEntry_cases key with ⟨hsame, -⟩ | ⟨-, -, hnew⟩
    · rwa [hsame]
    · rw [hnew]
      exact (Store.has_modify ..).2 ((Store.has_create ..).2 (.inl hb))
  | clear => exact hb
  | create => exact (Store.has_create ..).2 (.inl hb)
  | global =>
    rw [store_insertGlobal]
    exact hb

/-- One place gets a binding, which it held before or which was not there. -/
theorem slots_of_update {x₀ x : Slot} {b₀ : BindingId} (h : s.Closed)
    (update : ∀ y, s'.slot? y = if y = x₀ then some b₀ else s.slot? y) (has : s'.store.Has b₀)
    (old : s.slot? x₀ = some b₀ ∨ b₀ = (s.store.create "" "" "").1) (hx : s'.slot? x = some b) :
    s.slot? x = some b ∨ s'.store.Has b ∧ (∀ y, s.slot? y ≠ some b) ∧
      ∀ y, s'.slot? y = some b → y = x := by
  have hb := update x
  rw [hx] at hb
  split at hb
  · next hx₀ =>
    cases hb
    refine old.imp (fun h => hx₀ ▸ h) fun hnew => ?_
    have none : ∀ y, s.slot? y ≠ some b := fun y => hnew ▸ not_slot?_create h "" "" "" y
    refine ⟨has, none, fun y hy => ?_⟩
    rw [update] at hy
    split at hy
    · next hy₀ => rw [hy₀, hx₀]
    · exact absurd hy (none y)
  · exact .inl hb.symm

/-- **A place holds what it held**, or a binding that was in no place and now is in this one. -/
theorem slots (t : s.Touch s') (h : s.Closed) {x : Slot} (hx : s'.slot? x = some b) :
    s.slot? x = some b ∨ s'.store.Has b ∧ (∀ y, s.slot? y ≠ some b) ∧
      ∀ y, s'.slot? y = some b → y = x := by
  have same : s'.slot? x = s.slot? x → s.slot? x = some b ∨ s'.store.Has b ∧
      (∀ y, s.slot? y ≠ some b) ∧ ∀ y, s'.slot? y = some b → y = x := fun hs => .inl (hs ▸ hx)
  cases t with
  | relabel b => exact same ((s.samePlaces_modify b _ s.handles).slots x)
  | number => exact same ((s.samePlaces_ensureHandle _).slots x)
  | @child parent hp name =>
    refine slots_of_update h (slot?_childOrCreate (h.whole parent hp) name)
      (has_childOrCreate h parent name) ?_ hx
    exact (s.childOrCreate_cases parent name).imp And.right And.left
  | leave =>
    refine same ?_
    have h := s.slot?_collection x
    cases x <;> exact h
  | link => exact same (by cases x <;> rfl)
  | object key =>
    have update : ∀ y f, ((s.referenceEntry key).2.mapStore
        (·.modify (s.referenceEntry key).1 f)).slot? y = _ := fun y f =>
      ((samePlaces_modify _ (s.referenceEntry key).1 f _).slots y).trans
        (slot?_referenceEntry s key y)
    refine slots_of_update h (update · _) ((Store.has_modify ..).2 (has_referenceEntry h key)) ?_ hx
    exact (s.referenceEntry_cases key).imp And.right fun h => h.2.1
  | clear => exact .inl (slot?_of_clear hx)
  | create => exact same (s.slot?_create _ _ _ x)
  | global has unplaced name =>
    refine (slot?_insertGlobal hx).imp_right fun ⟨hb, frame, htop, hframe⟩ => ?_
    subst hb
    refine ⟨by rwa [store_insertGlobal], unplaced, fun y hy => ?_⟩
    rcases slot?_insertGlobal hy with hy | ⟨-, frame', htop', hframe'⟩
    · exact absurd hy (unplaced y)
    · rw [hframe, hframe', Option.some.inj (htop.symm.trans htop')]

theorem whole (t : s.Touch s') (h : s.Closed) : s'.store.Whole := by
  cases t with
  | relabel b labels =>
    refine h.whole.modify b fun hb => ?_
    rw [labels.children]
    exact h.whole b hb
  | @number b =>
    intro c hc
    rw [get_ensureHandle s b Binding.children fun _ _ => rfl]
    exact ((s.samePlaces_ensureHandle b).hasCollection _).2
      (h.whole c (((s.samePlaces_ensureHandle b).has c).1 hc))
  | @child parent _ name =>
    rcases s.childOrCreate_cases parent name with ⟨hsame, -⟩ | ⟨-, hnew⟩
    · rw [hsame]
      exact h.whole
    · rw [hnew]
      exact (h.whole.create name "" "").modifyCollection _ _
  | @leave b inner f labels =>
    have detached := h.whole.detach b
    refine detached.modify b fun hb => ?_
    rw [labels.children]
    exact detached b hb
  | @link b entry key _ known f labels =>
    have shared : (s.store.share b entry).Whole := h.whole.modify b fun _ =>
      h.whole entry (h.has (x := .object key) known)
    refine shared.modify b fun hb => ?_
    rw [labels.children]
    exact shared b hb
  | object key labels =>
    have made : (s.referenceEntry key).2.store.Whole := by
      rcases s.referenceEntry_cases key with ⟨hsame, -⟩ | ⟨-, -, hnew⟩
      · rw [hsame]
        exact h.whole
      · rw [hnew]
        have created := h.whole.create "" "" ""
        exact created.modify _ (created _)
    refine made.modify _ fun hb => ?_
    rw [labels.children]
    exact made _ hb
  | clear => exact h.whole.modifyCollection _ _
  | create => exact h.whole.create _ _ _
  | global =>
    rw [store_insertGlobal]
    exact h.whole

/-- **No binding becomes the entry of an object** but a new one. -/
theorem slot_object (t : s.Touch s') (hb : s.store.Has b) {key : String}
    (h : s'.references.get? key = some b) : s.references.get? key = some b := by
  cases t with
  | @number c => exact ((s.samePlaces_ensureHandle c).slots (.object key)).symm.trans h
  | object k =>
    rcases s.referenceEntry_cases k with ⟨hsame, -⟩ | ⟨-, -, hnew⟩
    · rwa [hsame] at h
    · rw [hnew] at h
      change (s.references.insert k _).get? key = _ at h
      rw [Table.get?_insert] at h
      split at h
      · exact absurd (Option.some.inj h ▸ hb) (s.store.not_has_create "" "" "")
      · exact h
  | global =>
    unfold insertGlobal modifyTop at h
    split at h <;> exact h
  | _ => exact h

theorem inner (t : s.Touch s') (hb : s.Inner b) : s'.Inner b where
  has := t.has hb.has
  noEntry key h := hb.noEntry key (t.slot_object hb.has h)

/-- **Touches keep states orderly.** -/
theorem orderly (t : s.Touch s') (h : s.Orderly) : s'.Orderly where
  has hx := (t.slots h.toClosed hx).elim (fun hx => t.has (h.has hx)) And.left
  whole := t.whole h.toClosed
  apart {key x b} he hx := by
    rcases t.slots h.toClosed (x := .object key) he with hold | ⟨-, -, honly⟩
    · rcases t.slots h.toClosed hx with hx | ⟨-, hnone, -⟩
      · exact h.apart hold hx
      · exact absurd hold (hnone (.object key))
    · exact ⟨key, honly x hx⟩

end Touch

/-- Touches, one after the other. -/
def Touches : State → State → Prop := Relation.ReflTransGen Touch

namespace Touches

theorem refl (s : State) : s.Touches s := Relation.ReflTransGen.refl

theorem single (t : s.Touch s') : s.Touches s' := Relation.ReflTransGen.single t

theorem trans (h : s.Touches s') (h' : s'.Touches s'') : s.Touches s'' :=
  Relation.ReflTransGen.trans h h'

theorem invariant {I : State → Prop} (step : ∀ {s s'}, Touch s s' → I s → I s')
    (h : s.Touches s') (hi : I s) : I s' := by
  induction h with
  | refl => exact hi
  | tail _ t ih => exact step t ih

theorem has (h : s.Touches s') (hb : s.store.Has b) : s'.store.Has b :=
  h.invariant (I := fun s => s.store.Has b) (fun t hb => t.has hb) hb

theorem inner (h : s.Touches s') (hb : s.Inner b) : s'.Inner b :=
  h.invariant (fun t hb => t.inner hb) hb

theorem orderly (h : s.Touches s') (hs : s.Orderly) : s'.Orderly :=
  h.invariant (fun t hs => t.orderly hs) hs

end Touches

theorem touches_foldl {f : Store → BindingId → Store}
    (step : ∀ (s : State) (b : BindingId), s.Touches (s.mapStore fun store => f store b))
    (l : List BindingId) (s : State) : s.Touches (s.mapStore fun store => l.foldl f store) := by
  induction l generalizing s with
  | nil => exact .refl s
  | cons b l ih => exact (step s b).trans (ih _)

end State

end Retrace
