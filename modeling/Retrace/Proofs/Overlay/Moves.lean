import Retrace.Proofs.Overlay.Contents
import Retrace.Proofs.Overlay.Touches

/-!
# Moves of an overlay

Each pass of an overlay goes through what a snapshot lists and makes a few moves for each of it. A
move touches the state, and may note a binding for a later pass.

* `Overlay.Valid`: the state is orderly, and the noted bindings are children or variables.
* `Overlay.Move`, `Overlay.Leads`: the moves, and going on by moves to another overlay.
* **`Overlay.Move.touches`**, `Overlay.Move.valid`: moves touch the state and keep overlays valid.
* `Overlay.Leads.foldl`: a pass goes on when each of its steps does.
-/

namespace Retrace

namespace Overlay

variable {o o' o'' : Overlay} {b child : BindingId}

/-! ## Moves -/

/-- The binding of a captured object is looked up or made and gets its type; its children go, unless
they are to be merged. -/
def openObject (o : Overlay) (extent : Extent) (c : Capture) : Overlay :=
  let merges := o.merges extent.typeName c.address
  let (b, o) := o.objectAt c.address
  let o := o.mapStore fun store =>
    let store := store.modify b fun binding =>
      { binding with typeName := extent.typeName, reference := some c.address }
    if merges then store else store.clear b
  { o with touched := o.touched ++ [b] }

theorem refreshObject_eq (o : Overlay) (extent : Extent) (c : Capture) :
    o.refreshObject extent c =
      (o.openObject extent c).writeContent (o.objectAt c.address).1 extent c.content := rfl

/-- The state is orderly, and the bindings that wait for a reference stand for no object. -/
structure Valid (o : Overlay) : Prop where
  orderly : o.state.Orderly
  pending : ∀ noted ∈ o.pending, o.state.Inner noted.1

/-- The moves that passes are made of. -/
inductive Move (o : Overlay) : Overlay → Prop
  /-- The binding in a place gets a type, and that of children of maps where one may stand. -/
  | type {x : Slot} {b : BindingId} (placed : o.state.slot? x = some b) {type : String}
      (pair : type = pairType ∨ ¬ x.MayHoldPair) : o.Move (o.mapStore (·.setType b type))
  | number {b : BindingId} (has : o.state.store.Has b) : o.Move (o.mapState (·.ensureHandle b))
  | child {parent : BindingId} (has : o.state.store.Has parent) (name : String) :
      o.Move (o.childOrCreate parent name).2
  | scalar {b : BindingId} (inner : o.state.Inner b) (text : String) : o.Move (o.setScalar b text)
  /-- A child holds an address for now. -/
  | note {b : BindingId} (inner : o.state.Inner b) (address : String) :
      o.Move { o.mapStore (·.setValue b address) with pending := o.pending ++ [(b, address)] }
  | link {b entry : BindingId} {address : String} (inner : o.state.Inner b)
      (known : o.state.references.get? address = some entry) : o.Move (o.link b entry address)
  | object (extent : Extent) (c : Capture) : o.Move (o.openObject extent c)
  /-- A child of a map is listed. -/
  | pair {c : CollectionId} {index : Nat} {b : BindingId}
      (placed : o.state.slot? (.field c (Slot.pairName index)) = some b)
      (typed : (o.state.store.get b).typeName = pairType) :
      o.Move { o with pairs := o.pairs ++ [b] }
  | create (name type value : String) :
      o.Move (o.mapStore fun store => (store.create name type value).2)
  | global {b : BindingId} (has : o.state.store.Has b) (unplaced : ∀ x, o.state.slot? x ≠ some b)
      (name : String) : o.Move (o.mapState (·.insertGlobal name b))

/-- Looking up or making the binding of an address and writing its key is what a log line does, at
last. -/
theorem objectAt_modify (o : Overlay) (address : String) {f : Binding → Binding}
    (forgets : ∀ a key, f { a with reference := key } = f a) :
    (o.objectAt address).1 = (o.state.referenceEntry address).1 ∧
      (o.objectAt address).2.state.mapStore (·.modify (o.objectAt address).1 f) =
        (o.state.referenceEntry address).2.mapStore
          (·.modify (o.state.referenceEntry address).1 f) := by
  cases hr : o.state.references.get? address with
  | some b =>
    constructor <;> simp only [objectAt, State.referenceEntry, hr]
  | none =>
    have hf : (f ∘ fun binding => { binding with reference := some address }) = f :=
      funext fun a => forgets a _
    constructor <;>
      simp only [objectAt, State.referenceEntry, hr, State.createBlank, State.mapStore,
        Store.modify_modify, hf]

theorem objectAt_notes (o : Overlay) (address : String) :
    (o.objectAt address).2.pending = o.pending ∧ (o.objectAt address).2.touched = o.touched ∧
      (o.objectAt address).2.pairs = o.pairs ∧ (o.objectAt address).2.strings = o.strings := by
  unfold objectAt
  split <;> exact ⟨rfl, rfl, rfl, rfl⟩

theorem touches_openObject (o : Overlay) (extent : Extent) (c : Capture) :
    o.state.Touches (o.openObject extent c).state := by
  let f : Binding → Binding := fun binding =>
    { binding with typeName := extent.typeName, reference := some c.address }
  have labelled : o.state.Touch ((o.objectAt c.address).2.state.mapStore
      (·.modify (o.objectAt c.address).1 f)) := by
    rw [(o.objectAt_modify c.address (f := f) fun _ _ => rfl).2]
    exact .object c.address {} fun _ => rfl
  unfold openObject
  dsimp only
  split
  · exact .single labelled
  · exact (State.Touches.single labelled).trans (.single (.clear _))

theorem has_openObject (v : o.Valid) (extent : Extent) (c : Capture) :
    (o.openObject extent c).state.store.Has (o.objectAt c.address).1 := by
  have has : (o.objectAt c.address).2.state.store.Has (o.objectAt c.address).1 := by
    cases hr : o.state.references.get? c.address with
    | some b =>
      simp only [objectAt, hr]
      exact v.orderly.has (x := .object c.address) hr
    | none =>
      simp only [objectAt, hr]
      exact (Store.has_create ..).2 (.inr rfl)
  unfold openObject
  dsimp only
  split
  · exact (Store.has_modify ..).2 has
  · exact (Store.has_modifyCollection ..).2 ((Store.has_modify ..).2 has)

namespace Move

/-- **Moves are touches** of the state. -/
theorem touches (m : o.Move o') : o.state.Touches o'.state := by
  cases m with
  | type => exact .single (.relabel _ {} fun _ => rfl)
  | number has => exact .single (.number has)
  | child has name => exact .single (.child has name)
  | @scalar b inner text =>
    unfold setScalar mapStore mapState
    by_cases hr : (o.state.store.get b).reference.isSome
    · simp only [State.mapStore, if_pos hr]
      have left : o.state.Touch _ :=
        .leave inner (f := fun binding => { binding with reference := none }) {} fun _ => rfl
      exact (State.Touches.single left).trans (.single (.relabel b {} fun _ => rfl))
    · simp only [State.mapStore, if_neg hr]
      exact .single (.relabel b {} fun _ => rfl)
  | note => exact .single (.relabel _ {} fun _ => rfl)
  | @link b entry address inner known =>
    let f : Binding → Binding := fun binding =>
      { binding with
        reference := some address
        typeName := if binding.typeName = "" then (o.state.store.get entry).typeName
          else binding.typeName }
    have linked : o.state.Touch _ := .link inner known (f := f) {} fun _ => rfl
    exact (State.Touches.single linked).trans (.single (.number (linked.has inner.has)))
  | object extent c => exact o.touches_openObject extent c
  | pair => exact .refl _
  | create name type value => exact .single (.create name type value)
  | global has unplaced name => exact .single (.global has unplaced name)

/-- Only children and variables wait for a reference. -/
theorem waits (m : o.Move o') (noted : BindingId × String) (h : noted ∈ o'.pending) :
    noted ∈ o.pending ∨ o'.state.Inner noted.1 := by
  cases m with
  | note inner address =>
    rcases List.mem_append.1 h with h | h
    · exact .inl h
    · rw [List.mem_singleton] at h
      subst h
      exact .inr ((note inner address).touches.inner inner)
  | object extent c =>
    have same : (o.openObject extent c).pending = o.pending := (o.objectAt_notes c.address).1
    exact .inl (same ▸ h)
  | _ => exact .inl h

theorem valid (m : o.Move o') (v : o.Valid) : o'.Valid where
  orderly := m.touches.orderly v.orderly
  pending noted h := (m.waits noted h).elim (fun h => m.touches.inner (v.pending noted h)) id

end Move

/-! ## Going on -/

/-- Moves, one after the other. -/
def Moves : Overlay → Overlay → Prop := Relation.ReflTransGen Move

theorem Moves.invariant {I : Overlay → Prop} (step : ∀ {o o'}, Move o o' → I o → I o')
    (h : o.Moves o') (hi : I o) : I o' := by
  induction h with
  | refl => exact hi
  | tail _ m ih => exact step m ih

theorem Moves.touches (h : o.Moves o') : o.state.Touches o'.state :=
  h.invariant (I := fun o' => o.state.Touches o'.state) (fun m h => h.trans m.touches) (.refl _)

/-- Going on by moves to a valid overlay. -/
structure Leads (o o' : Overlay) : Prop where
  valid : o'.Valid
  moves : o.Moves o'

namespace Leads

theorem refl (v : o.Valid) : o.Leads o := ⟨v, .refl⟩

theorem trans (h : o.Leads o') (h' : o'.Leads o'') : o.Leads o'' :=
  ⟨h'.valid, Relation.ReflTransGen.trans h.moves h'.moves⟩

theorem single (v : o.Valid) (m : o.Move o') : o.Leads o' := ⟨m.valid v, .single m⟩

theorem touches (h : o.Leads o') : o.state.Touches o'.state := h.moves.touches

theorem has (h : o.Leads o') (hb : o.state.store.Has b) : o'.state.store.Has b := h.touches.has hb

theorem inner (h : o.Leads o') (hb : o.state.Inner b) : o'.state.Inner b := h.touches.inner hb

/-- **A pass goes on when each of its steps does.** -/
theorem foldl {α : Type} {f : Overlay → α → Overlay} {l : List α} (v : o.Valid)
    (step : ∀ {o'} a, a ∈ l → o.Leads o' → o'.Leads (f o' a)) : o.Leads (l.foldl f o) := by
  suffices h : ∀ o', o.Leads o' → o.Leads (l.foldl f o') from h o (.refl v)
  induction l with
  | nil => exact fun _ h => h
  | cons a l ih =>
    intro o' h
    exact ih (fun c hc => step c (List.mem_cons_of_mem _ hc)) _
      (h.trans (step a List.mem_cons_self h))

theorem foldl_split {α : Type} {f : Overlay → α → Overlay} {l before behind : List α} {a : α}
    (v : o.Valid) (step : ∀ {o'} a, a ∈ l → o.Leads o' → o'.Leads (f o' a))
    (hl : l = before ++ a :: behind) :
    o.Leads (before.foldl f o) ∧ (before.foldl f o).Leads (f (before.foldl f o) a) ∧
      (f (before.foldl f o) a).Leads (l.foldl f o) := by
  subst hl
  have hbefore := foldl v fun c hc h => step c (List.mem_append_left _ hc) h
  have hnow := step a (List.mem_append_right _ List.mem_cons_self) hbefore
  refine ⟨hbefore, hnow, ?_⟩
  rw [List.foldl_append, List.foldl_cons]
  exact foldl hnow.valid fun c hc h =>
    step c (List.mem_append_right _ (List.mem_cons_of_mem _ hc)) (hbefore.trans (hnow.trans h))

theorem keeps {I : Overlay → Prop} (step : ∀ {o o'}, o.Valid → o.Move o' → I o → I o')
    (v : o.Valid) (h : o.Leads o') (hi : I o) : I o' :=
  (h.moves.invariant (I := fun o => o.Valid ∧ I o)
    (fun m h => ⟨m.valid h.1, step h.1 m h.2⟩) ⟨v, hi⟩).2

end Leads

/-! ## Single bindings -/

theorem leads_setScalar (v : o.Valid) (hb : o.state.Inner child) (text : String) :
    o.Leads (o.setScalar child text) := .single v (.scalar hb text)

theorem leads_link (v : o.Valid) (hb : o.state.Inner child) {entry : BindingId} {address : String}
    (he : o.state.references.get? address = some entry) : o.Leads (o.link child entry address) :=
  .single v (.link hb he)

theorem leads_assignSlot (v : o.Valid) (hb : o.state.Inner child) (value : Json) :
    o.Leads (o.assignSlot child value) := by
  unfold assignSlot
  split
  · exact leads_setScalar v hb _
  · next address _ =>
    split
    · exact leads_setScalar v hb _
    · exact .single v (.note hb address)

theorem leads_childOrCreate (v : o.Valid) (hb : o.state.store.Has b) (name : String) :
    o.Leads (o.childOrCreate b name).2 ∧
      (o.childOrCreate b name).2.state.slot? (.field (o.state.store.get b).children name) =
        some (o.childOrCreate b name).1 :=
  ⟨.single v (.child hb name), State.slot?_child v.orderly.toClosed hb name⟩

end Overlay

end Retrace
