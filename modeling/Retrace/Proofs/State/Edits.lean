import Retrace.Proofs.State.Assignments

/-!
# Edits

Assignments and overlays change a state in many ways, and all of them are made of a few edits: a
binding is rewritten or gets a handle, a child or the entry of an object is looked up or made, a
collection is made or emptied, a binding is made, and a trigger variable gets its binding. What
these edits keep, every assignment and every overlay keeps.

* `State.Numbered`, `State.SameFrames`: handles and bindings name each other; calls are left alone.
* `State.Edit`, `State.Edits`: the edits, and sequences of them.
* **`State.Edits.sound`**, **`State.Edits.numbered`**, **`State.Edits.sameFrames`**: what they keep.
* **`State.edits_assign`**: an assignment is a sequence of edits.
-/

namespace Retrace

namespace Store

variable {s : Store} {b : BindingId}

theorem get_of_not_has (h : ¬ s.Has b) : s.get b = {} := by
  unfold Has at h
  simp [get, h]

theorem has_of_handle {h : Nat} (hb : (s.get b).handle = some h) : s.Has b := by
  refine Classical.byContradiction fun hn => ?_
  rw [get_of_not_has hn] at hb
  cases hb

@[simp] theorem handle_create (name type value : String) (c : BindingId) :
    ((s.create name type value).2.get c).handle = (s.get c).handle := by
  by_cases hc : c = (s.create name type value).1
  · subst hc
    rw [get_create_self, get_of_not_has (s.not_has_create name type value)]
  · rw [get_create_of_ne _ _ _ _ hc]

@[simp] theorem handle_childOrCreate (name : String) (c : BindingId) :
    ((s.childOrCreate b name).2.get c).handle = (s.get c).handle := by
  cases h : s.child? b name with
  | some child => rw [childOrCreate_of_some s b name h]
  | none => rw [childOrCreate_of_none s b name h, get_modifyCollection, handle_create]

end Store

namespace State

variable {s s' s'' : State} {b : BindingId}

/-! ## Handles -/

/-- A binding that has a handle is the one that the handle expands, and the other way round. -/
structure Numbered (s : State) : Prop where
  ofHandle : ∀ {b h}, (s.store.get b).handle = some h → s.handles.get? h = some (.binding b)
  ofTarget : ∀ {b h}, s.handles.get? h = some (.binding b) →
    s.store.Has b ∧ (s.store.get b).handle = some h

theorem numbered_empty : empty.Numbered where
  ofHandle h := by
    have hb := Store.has_of_handle h
    exact absurd hb (Nat.not_lt_zero _)
  ofTarget h := by cases h

theorem Numbered.of_handle (hn : s.Numbered) (handles : s'.handles = s.handles)
    (handle : ∀ b, (s'.store.get b).handle = (s.store.get b).handle) : s'.Numbered where
  ofHandle {b h} hb := by
    rw [handle] at hb
    rw [handles]
    exact hn.ofHandle hb
  ofTarget {b h} ht := by
    rw [handles] at ht
    have hb := (handle b).trans (hn.ofTarget ht).2
    exact ⟨Store.has_of_handle hb, hb⟩

theorem Numbered.ensureHandle (hn : s.Numbered) (hb : s.store.Has b) :
    (s.ensureHandle b).Numbered := by
  unfold State.ensureHandle
  split
  · exact hn
  · next hnone =>
    have hself := Store.get_modify_self (fun a => { a with handle := some s.handles.next }) hb
    -- no other binding has the number
    have hother : ∀ c, (s.store.get c).handle ≠ some s.handles.next := by
      intro c hc
      have ht := hn.ofHandle hc
      rw [Handles.get?_next] at ht
      cases ht
    refine ⟨fun {c h} hc => ?_, fun {c h} ht => ?_⟩
    · show (s.handles.create (.binding b)).get? h = _
      rw [Handles.get?_create]
      by_cases hcb : c = b
      · subst hcb
        have hh : s.handles.next = h := Option.some.inj ((congrArg _ hself).symm.trans hc)
        rw [if_pos hh.symm]
      · have hc' : (s.store.get c).handle = some h := by
          rw [← hc, Store.get_modify_of_ne _ hcb]
        have hne : h ≠ s.handles.next := fun e => hother c (e ▸ hc')
        rw [if_neg hne]
        exact hn.ofHandle hc'
    · change (s.handles.create (.binding b)).get? h = _ at ht
      rw [Handles.get?_create] at ht
      have hc : ((s.store.modify b fun a => { a with handle := some s.handles.next }).get c).handle
          = some h := by
        split at ht
        · next hh =>
          cases ht
          rw [hself, hh]
        · have hold := (hn.ofTarget ht).2
          have hcb : c ≠ b := by
            rintro rfl
            rw [hnone] at hold
            cases hold
          rw [Store.get_modify_of_ne _ hcb, hold]
      exact ⟨Store.has_of_handle hc, hc⟩

/-! ## Calls -/

/-- The calls are the same ones, with the same variables but for trigger variables, and so are the
static variables. -/
structure SameFrames (s s' : State) : Prop where
  stack : s'.stack = s.stack
  statics : s'.statics = s.statics
  keys : s'.activations.keys = s.activations.keys
  activation : ∀ {id activation}, s'.activations.get? id = some activation →
    ∃ globals, s.activations.get? id = some { activation with globals }

theorem SameFrames.of_eq (stack : s'.stack = s.stack) (statics : s'.statics = s.statics)
    (activations : s'.activations = s.activations) : s.SameFrames s' where
  stack := stack
  statics := statics
  keys := by rw [activations]
  activation {_ a} h := by
    rw [activations] at h
    exact ⟨a.globals, h⟩

theorem SameFrames.refl (s : State) : s.SameFrames s := .of_eq rfl rfl rfl

theorem SameFrames.trans (h : s.SameFrames s') (h' : s'.SameFrames s'') : s.SameFrames s'' where
  stack := h'.stack.trans h.stack
  statics := h'.statics.trans h.statics
  keys := h'.keys.trans h.keys
  activation ha := by
    obtain ⟨_, ha'⟩ := h'.activation ha
    obtain ⟨globals, ha''⟩ := h.activation ha'
    exact ⟨globals, ha''⟩

theorem sameFrames_ensureHandle (s : State) (b : BindingId) : s.SameFrames (s.ensureHandle b) := by
  unfold ensureHandle
  split
  · exact .refl s
  · exact .of_eq rfl rfl rfl

theorem sameFrames_referenceEntry (s : State) (key : String) :
    s.SameFrames (s.referenceEntry key).2 := by
  unfold referenceEntry
  split
  · exact .refl s
  · exact .of_eq rfl rfl rfl

/-- Puts a trigger variable into the current call. -/
def insertGlobal (s : State) (name : String) (b : BindingId) : State :=
  s.modifyTop fun activation => { activation with globals := activation.globals.insert name b }

theorem sameFrames_insertGlobal (s : State) (name : String) (b : BindingId) :
    s.SameFrames (s.insertGlobal name b) := by
  unfold insertGlobal modifyTop
  split
  · exact .refl s
  · next frame _ =>
    refine ⟨rfl, rfl, List.map_map .., fun {id a} h => ?_⟩
    simp only [Handles.get?_update, Option.map_eq_some_iff] at h
    obtain ⟨a', ha', rfl⟩ := h
    refine ⟨a'.globals, ?_⟩
    split <;> exact ha'

/-! ## Growing and filling -/

/-- A state stays sound when places are at most emptied and bindings at most made. -/
theorem Sound.of_grows (hs : s.Sound) (slots : ∀ {x b}, s'.slot? x = some b → s.slot? x = some b)
    (has : ∀ {b}, s.store.Has b → s'.store.Has b)
    (get : ∀ {b}, s.store.Has b → s'.store.get b = s.store.get b)
    (hasCollection : ∀ {b}, s'.store.Has b → s'.store.HasCollection (s'.store.get b).children) :
    s'.Sound where
  has h := has (hs.has (slots h))
  unique h h' := hs.unique (slots h) (slots h')
  hasCollection := hasCollection
  keyed h := by
    rw [get (hs.has (slots h))]
    exact hs.keyed (slots h)

theorem slot?_insertGlobal {name : String} {x : Slot} {c : BindingId}
    (h : (s.insertGlobal name b).slot? x = some c) :
    s.slot? x = some c ∨ c = b ∧ ∃ frame, s.top? = some frame ∧ x = .globalVar frame.id name := by
  unfold insertGlobal modifyTop at h
  split at h
  · exact .inl h
  · next frame htop =>
    cases x with
    | localVar f n =>
      simp only [slot?, Handles.get?_update] at h ⊢
      cases ha : s.activations.get? f with
      | none => simp [ha] at h
      | some a =>
        left
        rw [ha] at h
        by_cases hf : f = frame.id <;> simpa [hf] using h
    | globalVar f n =>
      simp only [slot?, Handles.get?_update] at h ⊢
      cases ha : s.activations.get? f with
      | none => simp [ha] at h
      | some a =>
        rw [ha] at h
        by_cases hf : f = frame.id
        · by_cases hn : n = name
          · simp [hf, hn, Table.get?_insert] at h
            exact .inr ⟨h.symm, frame, htop, by rw [hf, hn]⟩
          · simp [hf, hn, Table.get?_insert] at h
            exact .inl (by simpa using h)
        · simp [hf] at h
          exact .inl (by simpa using h)
    | _ => exact .inl h

theorem store_insertGlobal (s : State) (name : String) (b : BindingId) :
    (s.insertGlobal name b).store = s.store := by
  unfold insertGlobal modifyTop
  split <;> rfl

theorem Sound.insertGlobal (hs : s.Sound) (hb : s.store.Has b) (unplaced : ∀ x, s.slot? x ≠ some b)
    (name : String) : (s.insertGlobal name b).Sound where
  has {x c} h := by
    rw [store_insertGlobal]
    rcases slot?_insertGlobal h with h | ⟨rfl, -⟩
    · exact hs.has h
    · exact hb
  unique {x y c} h h' := by
    rcases slot?_insertGlobal h with h | ⟨hc, frame, htop, hx⟩ <;>
      rcases slot?_insertGlobal h' with h' | ⟨hc', frame', htop', hy⟩
    · exact hs.unique h h'
    · exact absurd (hc' ▸ h) (unplaced x)
    · exact absurd (hc ▸ h') (unplaced y)
    · rw [hx, hy, Option.some.inj (htop.symm.trans htop')]
  hasCollection := by
    rw [store_insertGlobal]
    exact hs.hasCollection
  keyed {key c} h := by
    rw [store_insertGlobal]
    rcases slot?_insertGlobal h with h | ⟨-, _, -, hx⟩
    · exact hs.keyed h
    · cases hx

/-! ## Edits -/

/-- The edits that assignments and overlays are made of; `g` tells whether trigger variables may be
given bindings, as only overlays do. -/
inductive Edit (g : Bool) (s : State) : State → Prop
  /-- A binding changes. It keeps its handle, and the entry of an object keeps its key. -/
  | rewrite {b : BindingId} {f : Binding → Binding} (handle : ∀ a, (f a).handle = a.handle)
      (children : s.store.Has b → s.store.HasCollection (f (s.store.get b)).children)
      (keyed : ∀ key, s.slot? (.object key) = some b →
        (f (s.store.get b)).reference = some key) : s.Edit g (s.mapStore (·.modify b f))
  | number {b : BindingId} (has : s.store.Has b) : s.Edit g (s.ensureHandle b)
  | child {parent : BindingId} (has : s.store.Has parent) (name : String) :
      s.Edit g (s.childOrCreate parent name).2
  | entry (key : String) : s.Edit g (s.referenceEntry key).2
  | collection :
      s.Edit g (s.mapStore fun store => { store with collections := store.collections.push .empty })
  | clear (b : BindingId) : s.Edit g (s.mapStore (·.clear b))
  | create (name type value : String) :
      s.Edit g (s.mapStore fun store => (store.create name type value).2)
  /-- A trigger variable gets a binding that is in no place. -/
  | global {b : BindingId} (allowed : g) (has : s.store.Has b)
      (unplaced : ∀ x, s.slot? x ≠ some b) (name : String) : s.Edit g (s.insertGlobal name b)

variable {g : Bool}

theorem slot?_collection (s : State) (x : Slot) :
    (s.mapStore fun store =>
      { store with collections := store.collections.push .empty }).slot? x = s.slot? x := by
  cases x with
  | field c name => exact congrArg (·.get? name) (s.store.collection_create "" "" "" c)
  | _ => rfl

theorem slot?_create (s : State) (name type value : String) (x : Slot) :
    (s.mapStore fun store => (store.create name type value).2).slot? x = s.slot? x := by
  cases x with
  | field c n => exact congrArg (·.get? n) (s.store.collection_create name type value c)
  | _ => rfl

theorem slot?_of_clear {x : Slot} {c : BindingId}
    (h : (s.mapStore (·.clear b)).slot? x = some c) : s.slot? x = some c := by
  cases x with
  | field d name =>
    change ((s.store.modifyCollection (s.store.get b).children fun _ => .empty).collection d).get?
      name = some c at h
    show (s.store.collection d).get? name = some c
    by_cases hd : d = (s.store.get b).children
    · by_cases hh : s.store.HasCollection d
      · rw [hd, Store.collection_modifyCollection_self _ (hd ▸ hh), Table.get?_empty] at h
        cases h
      · have hh' : ¬ (s.store.modifyCollection (s.store.get b).children fun _ =>
            .empty).HasCollection d := by
          rw [Store.hasCollection_modifyCollection]
          exact hh
        rw [Store.collection_of_not_has _ hh', Table.get?_empty] at h
        cases h
    · rw [Store.collection_modifyCollection_of_ne _ hd] at h
      exact h
  | _ => exact h

/-- **Edits keep states sound.** -/
theorem Edit.sound (e : s.Edit g s') (hs : s.Sound) : s'.Sound := by
  cases e with
  | @rewrite b f handle children keyed =>
    refine hs.of_samePlaces (s.samePlaces_modify b f s.handles)
      (fun c hc => Store.get_modify_of_ne f hc) (fun hb => ?_) fun key h => ?_
    · show s.store.HasCollection ((s.store.modify b f).get b).children
      rw [Store.get_modify_self f hb]
      exact children hb
    · show ((s.store.modify b f).get b).reference = some key
      rw [Store.get_modify_self f (hs.has h)]
      exact keyed key h
  | @number b has =>
    refine hs.of_samePlaces (s.samePlaces_ensureHandle b) (fun c hc => get_ensureHandle_of_ne hc)
      (fun hb => ?_) fun key h => ?_
    · rw [get_ensureHandle s b Binding.children fun _ _ => rfl]
      exact hs.hasCollection hb
    · rw [get_ensureHandle s b Binding.reference fun _ _ => rfl]
      exact hs.keyed h
  | child has name =>
    exact (childOrCreate_writes (P := fun _ => True) hs has name trivial).sound hs
  | entry key => exact (referenceEntry_writes (P := fun _ => True) s key trivial).sound hs
  | collection =>
    refine hs.of_grows (fun h => (s.slot?_collection _).symm.trans h) id (fun _ => rfl)
      fun {c} hc => ?_
    have hold : s.store.HasCollection (s.store.get c).children := hs.hasCollection hc
    show (s.store.get c).children.index < (s.store.collections.push .empty).size
    rw [Array.size_push]
    exact Nat.lt_succ_of_lt hold
  | clear b =>
    refine hs.of_grows slot?_of_clear id (fun _ => rfl) fun {c} hc => ?_
    exact (Store.hasCollection_modifyCollection _ _).2 (hs.hasCollection hc)
  | create name type value =>
    refine hs.of_grows (fun h => (s.slot?_create name type value _).symm.trans h)
      (fun {c} hc => (s.store.has_create name type value c).2 (.inl hc))
      (fun {c} hc => s.store.get_create_of_ne name type value fun e =>
        s.store.not_has_create name type value (e ▸ hc)) fun {c} hc => ?_
    show (s.store.create name type value).2.HasCollection
      ((s.store.create name type value).2.get c).children
    rw [Store.hasCollection_create]
    rcases (s.store.has_create name type value c).1 hc with hc | rfl
    · rw [s.store.get_create_of_ne name type value fun e =>
        s.store.not_has_create name type value (e ▸ hc)]
      exact .inl (hs.hasCollection hc)
    · rw [Store.get_create_self]
      exact .inr rfl
  | global _ has unplaced name => exact hs.insertGlobal has unplaced name

/-- **Edits keep handles and bindings naming each other.** -/
theorem Edit.numbered (e : s.Edit g s') (hn : s.Numbered) : s'.Numbered := by
  cases e with
  | rewrite handle => exact hn.of_handle rfl fun c => Store.get_modify_field _ _ handle c
  | number has => exact hn.ensureHandle has
  | child _ name => exact hn.of_handle rfl fun c => s.store.handle_childOrCreate name c
  | entry key =>
    unfold referenceEntry
    split
    · exact hn
    · refine hn.of_handle rfl fun c => ?_
      exact (Store.get_modify_field (fun a => { a with reference := some key }) Binding.handle
        (fun _ => rfl) c).trans (s.store.handle_create "" "" "" c)
  | collection => exact hn.of_handle rfl fun _ => rfl
  | clear => exact hn.of_handle rfl fun _ => rfl
  | create => exact hn.of_handle rfl fun c => Store.handle_create ..
  | global =>
    unfold insertGlobal modifyTop
    split
    · exact hn
    · exact hn.of_handle rfl fun _ => rfl

/-- **Edits leave the calls alone.** -/
theorem Edit.sameFrames (e : s.Edit g s') : s.SameFrames s' := by
  cases e with
  | number => exact s.sameFrames_ensureHandle _
  | entry key => exact s.sameFrames_referenceEntry key
  | global => exact s.sameFrames_insertGlobal _ _
  | _ => exact .of_eq rfl rfl rfl

theorem Edit.activations (e : s.Edit false s') : s'.activations = s.activations := by
  cases e with
  | number =>
    unfold ensureHandle
    split <;> rfl
  | entry =>
    unfold referenceEntry
    split <;> rfl
  | global allowed => cases allowed
  | _ => rfl

theorem Edit.has (e : s.Edit g s') (hs : s.Sound) (hb : s.store.Has b) : s'.store.Has b := by
  cases e with
  | rewrite => exact (Store.has_modify ..).2 hb
  | number => exact ((s.samePlaces_ensureHandle _).has b).2 hb
  | child has name => exact (childOrCreate_writes (P := fun _ => True) hs has name trivial).has hb
  | entry key => exact (referenceEntry_writes (P := fun _ => True) s key trivial).has hb
  | collection => exact hb
  | clear => exact hb
  | create => exact (Store.has_create ..).2 (.inl hb)
  | global =>
    unfold insertGlobal modifyTop
    split <;> exact hb

theorem Edit.slot_object (e : s.Edit g s') (hb : s.store.Has b) {key : String}
    (h : s'.slot? (.object key) = some b) : s.slot? (.object key) = some b := by
  cases e with
  | number c => exact (s.samePlaces_ensureHandle _).slots _ ▸ h
  | entry k =>
    cases hk : s.slot? (.object k) with
    | some entry =>
      rw [slot?_referenceEntry] at h
      split at h
      · next hkey =>
        have hfst : (s.referenceEntry k).1 = entry := by
          simp only [referenceEntry, show s.references.get? k = some entry from hk]
        rw [hkey, hk, ← hfst, h]
      · exact h
    | none =>
      cases write_referenceEntry hk with
      | place _ new =>
        by_cases hkey : Slot.object key = .object k
        · rcases new.slot b (hkey ▸ h) with rfl | h
          · exact absurd hb new.fresh
          · exact hkey ▸ h
        · exact new.slots _ hkey ▸ h
  | global =>
    unfold insertGlobal modifyTop at h
    split at h <;> exact h
  | _ => exact h

/-! ## Bindings that stand for no object -/

/-- A binding of the store that is not the entry of an object. -/
structure Inner (s : State) (b : BindingId) : Prop where
  has : s.store.Has b
  noEntry : ∀ key, s.slot? (.object key) ≠ some b

theorem Inner.of_slot (hs : s.Sound) {x : Slot} (hx : s.slot? x = some b)
    (noEntry : ∀ key, x ≠ .object key) : s.Inner b where
  has := hs.has hx
  noEntry key h := noEntry key (hs.unique hx h)

theorem Edit.inner (e : s.Edit g s') (hs : s.Sound) (hb : s.Inner b) : s'.Inner b where
  has := e.has hs hb.has
  noEntry key h := hb.noEntry key (e.slot_object hb.has h)

/-! ## Sequences of edits -/

/-- Edits, one after the other. -/
def Edits (g : Bool) : State → State → Prop := Relation.ReflTransGen (Edit g)

namespace Edits

theorem refl (s : State) : s.Edits g s := Relation.ReflTransGen.refl

theorem single (e : s.Edit g s') : s.Edits g s' := Relation.ReflTransGen.single e

theorem trans (h : s.Edits g s') (h' : s'.Edits g s'') : s.Edits g s'' :=
  Relation.ReflTransGen.trans h h'

theorem invariant {I : State → Prop} (step : ∀ {s s'}, Edit g s s' → I s → I s')
    (h : s.Edits g s') (hi : I s) : I s' := by
  induction h with
  | refl => exact hi
  | tail _ e ih => exact step e ih

theorem sound (h : s.Edits g s') (hs : s.Sound) : s'.Sound := h.invariant (fun e => e.sound) hs

theorem numbered (h : s.Edits g s') (hn : s.Numbered) : s'.Numbered :=
  h.invariant (fun e => e.numbered) hn

theorem sameFrames (h : s.Edits g s') : s.SameFrames s' :=
  h.invariant (fun e same => same.trans e.sameFrames) (.refl s)

theorem activations (h : s.Edits false s') : s'.activations = s.activations :=
  h.invariant (I := fun s' => s'.activations = s.activations)
    (fun e same => e.activations.trans same) rfl

theorem inner (h : s.Edits g s') (hs : s.Sound) (hb : s.Inner b) : s'.Inner b :=
  (h.invariant (I := fun t => t.Sound ∧ t.Inner b)
    (fun e hi => ⟨e.sound hi.1, e.inner hi.1 hi.2⟩) ⟨hs, hb⟩).2

theorem has (h : s.Edits g s') (hs : s.Sound) (hb : s.store.Has b) : s'.store.Has b :=
  (h.invariant (I := fun t => t.Sound ∧ t.store.Has b)
    (fun e hi => ⟨e.sound hi.1, e.has hi.1 hi.2⟩) ⟨hs, hb⟩).2

end Edits

/-! ## Rewriting bindings -/

section Rewrite

variable {f : Binding → Binding}

theorem edit_children (hs : s.Sound) (handle : ∀ a, (f a).handle = a.handle)
    (reference : ∀ a, (f a).reference = a.reference)
    (children : s.store.Has b → s.store.HasCollection (f (s.store.get b)).children) :
    s.Edit g (s.mapStore (·.modify b f)) := by
  refine .rewrite handle children fun key h => ?_
  rw [reference]
  exact hs.keyed h

theorem edit_relabel (hs : s.Sound) (handle : ∀ a, (f a).handle = a.handle)
    (reference : ∀ a, (f a).reference = a.reference)
    (children : ∀ a, (f a).children = a.children) : s.Edit g (s.mapStore (·.modify b f)) := by
  refine edit_children hs handle reference fun hb => ?_
  rw [children]
  exact hs.hasCollection hb

theorem edit_inner (hs : s.Sound) (hb : s.Inner b) (handle : ∀ a, (f a).handle = a.handle)
    (children : ∀ a, (f a).children = a.children) : s.Edit g (s.mapStore (·.modify b f)) := by
  refine .rewrite handle (fun h => ?_) fun key h => absurd h (hb.noEntry key)
  rw [children]
  exact hs.hasCollection h

theorem edit_setValue (hs : s.Sound) (b : BindingId) (text : String) :
    s.Edit g (s.mapStore (·.setValue b text)) :=
  edit_relabel hs (fun _ => rfl) (fun _ => rfl) fun _ => rfl

theorem edit_share (hs : s.Sound) {source : BindingId} (hsource : s.store.Has source) :
    s.Edit g (s.mapStore (·.share b source)) :=
  edit_children hs (fun _ => rfl) (fun _ => rfl) fun _ => hs.hasCollection hsource

theorem edits_alias (hs : s.Sound) (hb : s.Inner b) {source : BindingId}
    (hsource : s.store.Has source) (handle : ∀ a, (f a).handle = a.handle)
    (children : ∀ a, (f a).children = a.children) :
    s.Edits g
      (({ s with store := (s.store.share b source).modify b f } : State).ensureHandle b) := by
  have e := edit_share (g := g) (b := b) hs hsource
  have hs' := e.sound hs
  have hb' := e.inner hs hb
  have e' := edit_inner (g := g) (f := f) hs' hb' handle children
  have hb'' := e'.inner hs' hb'
  exact (Edits.single e).trans ((Edits.single e').trans (.single (.number hb''.has)))

end Rewrite

/-! ## Assignments -/

section Assign

variable {key : String} {entry : BindingId}

theorem edits_link (hs : s.Sound) (hb : s.Inner b) (he : s.slot? (.object key) = some entry) :
    s.Edits g (s.link b entry key) :=
  edits_alias hs hb (hs.has he) (fun _ => rfl) fun _ => rfl

theorem edits_join (hs : s.Sound) (hb : s.Inner b) (he : s.slot? (.object key) = some entry)
    (leaf : String) : s.Edits g (s.join b entry key leaf) := by
  unfold join
  split
  · exact .refl s
  · exact edits_alias hs hb (hs.has he) (fun _ => rfl) fun _ => rfl

theorem inner_childOrCreate {parent : BindingId} (hs : s.Sound) (hp : s.store.Has parent)
    (name : String) : (s.childOrCreate parent name).2.Inner (s.childOrCreate parent name).1 := by
  have hs' := (Edit.child (g := false) hp name).sound hs
  have hslot := (slot?_childOrCreate (hs.hasCollection hp) name _).trans (if_pos rfl)
  exact .of_slot hs' hslot fun _ => by simp

theorem edits_decodeLeaf (hs : s.Sound) (hb : s.Inner b) (v : Literal) :
    s.Edits g (s.decodeLeaf b v) := by
  unfold decodeLeaf
  split
  · next h => exact edits_link hs hb (slot?_of_knownObject h)
  · exact .single (edit_setValue hs b _)

mutual

theorem edits_decodeInto {s : State} {b : BindingId} (hs : s.Sound) (hb : s.Inner b)
    (v : Literal) : s.Edits g (s.decodeInto b v) := by
  match v with
  | .object fields =>
    rw [decodeInto]
    have e := edit_setValue (g := g) hs b ""
    have hs' := e.sound hs
    have hb' := e.inner hs hb
    have e' : Edit g _ _ := .number hb'.has
    have h := (Edits.single e).trans (.single e')
    exact h.trans (edits_decodeFields (e'.sound hs') (e'.has hs' hb'.has) fields)
  | .quoted _ =>
    rw [decodeInto]
    exact edits_decodeLeaf hs hb _
  | .bare _ =>
    rw [decodeInto]
    exact edits_decodeLeaf hs hb _
  | .array _ =>
    rw [decodeInto]
    exact edits_decodeLeaf hs hb _

theorem edits_decodeFields {s : State} {parent : BindingId} (hs : s.Sound)
    (hp : s.store.Has parent) (fields : List (String × Literal)) :
    s.Edits g (s.decodeFields parent fields) := by
  match fields with
  | [] =>
    rw [decodeFields]
    exact .refl s
  | (name, v) :: fields =>
    rw [decodeFields]
    have e : s.Edit g (s.childOrCreate parent name).2 := .child hp name
    have hs' := e.sound hs
    have h := edits_decodeInto hs' (inner_childOrCreate hs hp name) v
    have h' := (Edits.single e).trans h
    exact h'.trans (edits_decodeFields (h'.sound hs) (h'.has hs hp) fields)

end

theorem edits_assignObject (hs : s.Sound) (he : s.slot? (.object key) = some entry)
    (v : Literal) : s.Edits g (s.assignObject entry v) := by
  unfold assignObject
  split
  · next fields =>
    have h := edits_decodeFields (g := g) hs (hs.has he) fields
    exact h.trans (.single (edit_setValue (h.sound hs) entry ""))
  · split
    · next k known h =>
      split
      · exact .refl s
      · exact .single (edit_share hs (hs.has (slot?_of_knownObject h)))
    · exact .single (edit_setValue hs entry _)

theorem edits_assignField (hs : s.Sound) (he : s.slot? (.object key) = some entry)
    (leaf : String) (v : Literal) : s.Edits g (s.assignField entry leaf v) := by
  rw [assignField_eq]
  have h := edits_decodeFields (g := g) hs (hs.has he) [(leaf, v)]
  exact h.trans (.single (edit_setValue (h.sound hs) entry ""))

/-- **An assignment is a sequence of edits.** -/
theorem edits_assign (hs : s.Sound) (a : Assignment) : s.Edits g (s.assign a) := by
  cases hr : a.reference with
  | none =>
    rw [assign_of_keyless hr]
    split
    · exact .single (edit_setValue hs _ _)
    · exact .refl s
    · exact .refl s
  | some key =>
    have e : s.Edit g (s.referenceEntry key).2 := .entry key
    have hs' := e.sound hs
    have he := (slot?_referenceEntry s key _).trans (if_pos rfl)
    rw [assign_of_key hr]
    dsimp only
    rcases h : s.assigned a with b | _ | _
    · dsimp only
      split
      · exact .single (edit_setValue hs _ _)
      · obtain ⟨x, hv, hx, -⟩ := slot?_of_assignee h
        have hb : s.Inner b := .of_slot hs hx hv.ne_object
        have w := assignObject_writes (P := fun _ => True) hs' he (Literal.parse a.value) trivial
          (fun _ _ _ => trivial) fun _ _ _ _ => trivial
        have h' := edits_assignObject (g := g) hs' he (Literal.parse a.value)
        have h'' := (Edits.single e).trans h'
        exact h''.trans
          (edits_join (h''.sound hs) (h''.inner hs hb) (w.slot_of_some he) _)
    · exact (Edits.single e).trans (edits_assignField hs' he _ _)
    · exact (Edits.single e).trans (edits_assignObject hs' he _)

end Assign

end State

end Retrace
