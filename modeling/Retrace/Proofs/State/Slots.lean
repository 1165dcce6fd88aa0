import Retrace.Proofs.Access

/-!
# Places of bindings

A state keeps its bindings in places: a child of a collection, a static variable of a scope, a
variable of an active call, the entry of a known object. What bindings hold and where they stand is
all that aliasing is about, so the writes of a replay are described by what they do to the places
and to the bindings in them.

* `Slot`, `State.slot?`: the places, and the binding that a state has in one.
* `State.Sound`: no binding stands in two places, and the entry of an object carries its key.
* `Effect`, `State.Write`: the four kinds of writes. A binding gets another text, a binding gets the
  collection of a known object, a new binding gets a place, the entry of an object gets the
  collection of another object.
* **`State.Write.sound`**: every write keeps a state sound.
-/

namespace Retrace

/-- A place for a binding. -/
inductive Slot
  /-- A child in a collection. -/
  | field (c : CollectionId) (name : String)
  /-- A static variable. -/
  | static (i : ScopeId) (name : String)
  /-- A local variable of the call with the given frame. -/
  | localVar (frame : Nat) (name : String)
  /-- A trigger variable of the call with the given frame. -/
  | globalVar (frame : Nat) (name : String)
  /-- The entry of the object with the given key. -/
  | object (key : String)
  deriving DecidableEq

namespace Slot

/-- A place for a variable that a log declares. -/
def IsVariable : Slot → Prop
  | static _ _ | localVar _ _ => True
  | field _ _ | globalVar _ _ | object _ => False

/-- A place from which everything that a log tells of is reached: that of a declared variable, or
that of a known object. -/
def IsRoot (x : Slot) : Prop := x.IsVariable ∨ ∃ key, x = .object key

theorem IsVariable.ne_object {x : Slot} (h : x.IsVariable) (key : String) : x ≠ .object key := by
  rintro rfl
  exact h

theorem IsRoot.ne_field {x : Slot} (h : x.IsRoot) (c : CollectionId) (name : String) :
    x ≠ .field c name := by
  rintro rfl
  rcases h with h | ⟨key, h⟩
  · exact h
  · cases h

end Slot

namespace State

/-- The binding in a place. -/
def slot? (s : State) : Slot → Option BindingId
  | .field c name => (s.store.collection c).get? name
  | .static i name => (s.statics.get i).get? name
  | .localVar frame name => (s.activations.get? frame).bind (·.locals.get? name)
  | .globalVar frame name => (s.activations.get? frame).bind (·.globals.get? name)
  | .object key => s.references.get? key

/-- **Soundness**: bindings in places are of the store and in one place each, their collections are
of the store too, and the entry of an object carries its key. -/
structure Sound (s : State) : Prop where
  has : ∀ {x b}, s.slot? x = some b → s.store.Has b
  unique : ∀ {x y b}, s.slot? x = some b → s.slot? y = some b → x = y
  hasCollection : ∀ {b}, s.store.Has b → s.store.HasCollection (s.store.get b).children
  keyed : ∀ {key b}, s.slot? (.object key) = some b → (s.store.get b).reference = some key

theorem sound_empty : empty.Sound where
  has {x b} h := by cases x <;> simp [slot?, empty] at h <;> cases h
  unique {x y b} h := by cases x <;> simp [slot?, empty] at h <;> cases h
  hasCollection {b} h := by simp [Store.Has, empty, Store.empty] at h
  keyed {key b} h := by simp [slot?, empty] at h

/-! ## Writes -/

/-- The bindings stand where they stood. -/
structure SamePlaces (s s' : State) : Prop where
  slots : ∀ x, s'.slot? x = s.slot? x
  tables : ∀ c, s'.store.collection c = s.store.collection c
  has : ∀ b, s'.store.Has b ↔ s.store.Has b
  hasCollection : ∀ c, s'.store.HasCollection c ↔ s.store.HasCollection c

/-- A new binding `b` without children takes the place `x`, if anything does. -/
structure Places (s : State) (x : Slot) (b : BindingId) (s' : State) : Prop where
  fresh : ¬ s.store.Has b
  slots : ∀ y, y ≠ x → s'.slot? y = s.slot? y
  tables : ∀ c, (∀ name, x ≠ .field c name) → s'.store.collection c = s.store.collection c
  slot : ∀ c, s'.slot? x = some c → c = b ∨ s.slot? x = some c
  has : ∀ c, s'.store.Has c ↔ s.store.Has c ∨ c = b
  hasCollection : ∀ c, s.store.HasCollection c → s'.store.HasCollection c
  others : ∀ c, c ≠ b → s'.store.get c = s.store.get c
  childless : ∀ name, s'.slot? (.field (s'.store.get b).children name) = none
  ownCollection : s'.store.HasCollection (s'.store.get b).children
  keyed : ∀ key, x = .object key → (s'.store.get b).reference = some key
  plain : (∀ key, x ≠ .object key) → (s'.store.get b).reference = none

end State

/-- A kind of write and the place it is about. -/
inductive Effect
  /-- The binding in a place changes its text, type or handle. -/
  | relabel (x : Slot)
  /-- The binding in a place refers to a known object from now on. -/
  | link (x : Slot)
  /-- A new binding takes a place. -/
  | place (x : Slot)
  /-- The entry of an object gets the collection of another object. -/
  | repoint (key : String)
  deriving DecidableEq

namespace Effect

/-- The place that a write is about. -/
def slot : Effect → Slot
  | relabel x | link x | place x => x
  | repoint key => .object key

/-- Whether the entry of an object gets the collection of another object. -/
def Repoints : Effect → Prop
  | repoint _ => True
  | _ => False

end Effect

namespace State

/-- The writes of a replay. -/
inductive Write (s : State) : Effect → State → Prop
  | relabel {x : Slot} {b : BindingId} {s' : State} (slot : s.slot? x = some b)
      (same : s.SamePlaces s') (others : ∀ c, c ≠ b → s'.store.get c = s.store.get c)
      (reference : (s'.store.get b).reference = (s.store.get b).reference)
      (children : (s'.store.get b).children = (s.store.get b).children) :
      s.Write (.relabel x) s'
  | link {x : Slot} {b entry : BindingId} {key : String} {s' : State} (slot : s.slot? x = some b)
      (noEntry : ∀ k, x ≠ .object k) (known : s.slot? (.object key) = some entry)
      (same : s.SamePlaces s') (others : ∀ c, c ≠ b → s'.store.get c = s.store.get c)
      (reference : (s'.store.get b).reference = some key)
      (children : (s'.store.get b).children = (s.store.get entry).children) :
      s.Write (.link x) s'
  | place {x : Slot} {b : BindingId} {s' : State} (vacant : s.slot? x = none)
      (new : s.Places x b s') (filled : s'.slot? x = some b) : s.Write (.place x) s'
  | repoint {key k : String} {entry source : BindingId} {s' : State}
      (slot : s.slot? (.object key) = some entry) (known : s.slot? (.object k) = some source)
      (same : s.SamePlaces s') (others : ∀ c, c ≠ entry → s'.store.get c = s.store.get c)
      (reference : (s'.store.get entry).reference = (s.store.get entry).reference)
      (children : (s'.store.get entry).children = (s.store.get source).children) :
      s.Write (.repoint key) s'

variable {s s' s'' : State}

theorem SamePlaces.refl (s : State) : s.SamePlaces s :=
  ⟨fun _ => rfl, fun _ => rfl, fun _ => Iff.rfl, fun _ => Iff.rfl⟩

theorem SamePlaces.trans (h : s.SamePlaces s') (h' : s'.SamePlaces s'') : s.SamePlaces s'' where
  slots x := (h'.slots x).trans (h.slots x)
  tables c := (h'.tables c).trans (h.tables c)
  has b := (h'.has b).trans (h.has b)
  hasCollection c := (h'.hasCollection c).trans (h.hasCollection c)

theorem Sound.of_samePlaces (hs : s.Sound) (same : s.SamePlaces s') {b : BindingId}
    (others : ∀ c, c ≠ b → s'.store.get c = s.store.get c)
    (children : s.store.Has b → s.store.HasCollection (s'.store.get b).children)
    (keyed : ∀ key, s.slot? (.object key) = some b → (s'.store.get b).reference = some key) :
    s'.Sound where
  has h := (same.has _).2 (hs.has (same.slots _ ▸ h))
  unique h h' := hs.unique (same.slots _ ▸ h) (same.slots _ ▸ h')
  hasCollection {c} hc := by
    rw [same.has] at hc
    rw [same.hasCollection]
    by_cases h : c = b
    · subst h
      exact children hc
    · rw [others c h]
      exact hs.hasCollection hc
  keyed {key c} h := by
    rw [same.slots] at h
    by_cases hc : c = b
    · subst hc
      exact keyed key h
    · rw [others c hc]
      exact hs.keyed h

theorem Sound.of_places (hs : s.Sound) {x : Slot} {b : BindingId} (new : s.Places x b s') :
    s'.Sound := by
  -- every place holds what it held, or it is `x` and holds the new binding
  have old : ∀ y c, s'.slot? y = some c → s.slot? y = some c ∨ y = x ∧ c = b := by
    intro y c h
    by_cases hy : y = x
    · subst hy
      exact (new.slot c h).symm.imp_right fun hc => ⟨rfl, hc⟩
    · exact .inl (new.slots y hy ▸ h)
  have ne : ∀ y c, s.slot? y = some c → c ≠ b := fun y c h e => new.fresh (e ▸ hs.has h)
  constructor
  · intro y c h
    rw [new.has]
    exact (old y c h).imp hs.has fun h => h.2
  · intro y z c hy hz
    rcases old y c hy with hy | ⟨rfl, rfl⟩ <;> rcases old z c hz with hz | ⟨rfl, hc⟩
    · exact hs.unique hy hz
    · exact absurd hc (ne y c hy)
    · exact absurd rfl (ne z c hz)
    · rfl
  · intro c hc
    by_cases h : c = b
    · subst h
      exact new.ownCollection
    · rw [new.others c h]
      exact new.hasCollection _ (hs.hasCollection (((new.has c).1 hc).resolve_right h))
  · intro key c h
    rcases old _ c h with h | ⟨hx, rfl⟩
    · rw [new.others c (ne _ c h)]
      exact hs.keyed h
    · exact new.keyed key hx.symm

theorem Write.slot_of_some {e : Effect} (w : s.Write e s') {x : Slot} {b : BindingId}
    (h : s.slot? x = some b) : s'.slot? x = some b := by
  cases w with
  | relabel _ same => rw [same.slots, h]
  | link _ _ _ same => rw [same.slots, h]
  | @place y _ _ vacant new =>
    have hx : x ≠ y := by
      rintro rfl
      rw [vacant] at h
      cases h
    rw [new.slots x hx, h]
  | repoint _ _ same => rw [same.slots, h]

theorem Write.has {e : Effect} (w : s.Write e s') {b : BindingId} (h : s.store.Has b) :
    s'.store.Has b := by
  cases w with
  | relabel _ same => exact (same.has b).2 h
  | link _ _ _ same => exact (same.has b).2 h
  | place _ new => exact (new.has b).2 (.inl h)
  | repoint _ _ same => exact (same.has b).2 h

/-- **Writes keep a state sound.** -/
theorem Write.sound {e : Effect} (w : s.Write e s') (hs : s.Sound) : s'.Sound := by
  cases w with
  | relabel slot same others reference children =>
    refine hs.of_samePlaces same others (fun hb => ?_) fun key h => ?_
    · rw [children]
      exact hs.hasCollection hb
    · rw [reference]
      exact hs.keyed h
  | link slot noEntry known same others reference children =>
    refine hs.of_samePlaces same others (fun _ => ?_) fun key h => ?_
    · rw [children]
      exact hs.hasCollection (hs.has known)
    · exact absurd (hs.unique slot h) (noEntry key)
  | place vacant new filled => exact hs.of_places new
  | repoint slot known same others reference children =>
    refine hs.of_samePlaces same others (fun _ => ?_) fun key h => ?_
    · rw [children]
      exact hs.hasCollection (hs.has known)
    · rw [reference]
      exact hs.keyed h

end State

end Retrace
