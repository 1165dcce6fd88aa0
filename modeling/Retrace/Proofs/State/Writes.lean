import Retrace.Proofs.State.Slots
import Retrace.State.Assign
import Mathlib.Logic.Relation

/-!
# Sequences of writes

The parts of which assignments consist, as writes: changing texts, linking bindings to known
objects, and making children and entries.

* `State.Writes`: writes of some kinds, one after the other.
* `State.write_modify`, `State.write_alias`: a binding gets another text; a binding becomes an
  alias.
* **`State.slot?_childOrCreate`**, **`State.slot?_referenceEntry`**: the places behind making a
  child or an entry.
-/

namespace Retrace

namespace State

/-- Writes of some kinds, one after the other. -/
def Writes (P : Effect → Prop) : State → State → Prop :=
  Relation.ReflTransGen fun s s' => ∃ e, P e ∧ s.Write e s'

namespace Writes

variable {P Q : Effect → Prop} {s s' s'' : State}

theorem refl : s.Writes P s := Relation.ReflTransGen.refl

theorem trans (h : s.Writes P s') (h' : s'.Writes P s'') : s.Writes P s'' :=
  Relation.ReflTransGen.trans h h'

theorem single {e : Effect} (he : P e) (w : s.Write e s') : s.Writes P s' :=
  Relation.ReflTransGen.single ⟨e, he, w⟩

theorem invariant {I : State → Prop} (step : ∀ {s s' e}, P e → s.Write e s' → I s → I s')
    (w : s.Writes P s') (h : I s) : I s' := by
  induction w with
  | refl => exact h
  | tail _ hw ih =>
    obtain ⟨e, he, hw⟩ := hw
    exact step he hw ih

theorem sound (w : s.Writes P s') (hs : s.Sound) : s'.Sound :=
  w.invariant (fun _ hw => hw.sound) hs

theorem slot_of_some (w : s.Writes P s') {x : Slot} {b : BindingId} (h : s.slot? x = some b) :
    s'.slot? x = some b :=
  w.invariant (I := fun s => s.slot? x = some b) (fun _ hw => hw.slot_of_some) h

theorem has (w : s.Writes P s') {b : BindingId} (h : s.store.Has b) : s'.store.Has b :=
  w.invariant (I := fun s => s.store.Has b) (fun _ hw => hw.has) h

end Writes

section Parts

variable {P : Effect → Prop} {s : State} {x : Slot} {b : BindingId}

/-! ## Texts and handles -/

theorem samePlaces_modify (s : State) (b : BindingId) (f : Binding → Binding)
    (handles : Handles Target) :
    s.SamePlaces { s with store := s.store.modify b f, handles } where
  slots x := by cases x <;> rfl
  tables _ := rfl
  has c := s.store.has_modify b f c
  hasCollection _ := Iff.rfl

theorem write_modify (hs : s.Sound) (hx : s.slot? x = some b) {f : Binding → Binding}
    (handles : Handles Target) (reference : ∀ a, (f a).reference = a.reference)
    (children : ∀ a, (f a).children = a.children) :
    s.Write (.relabel x) { s with store := s.store.modify b f, handles } := by
  have hb := Store.get_modify_self f (hs.has hx)
  refine .relabel hx (s.samePlaces_modify b f handles)
    (fun c hc => Store.get_modify_of_ne f hc) ?_ ?_
  · rw [hb, reference]
  · rw [hb, children]

theorem setValue_writes (hs : s.Sound) (hx : s.slot? x = some b) (text : String)
    (hP : P (.relabel x)) : s.Writes P (s.mapStore (·.setValue b text)) :=
  .single hP (write_modify hs hx s.handles (fun _ => rfl) fun _ => rfl)

theorem ensureHandle_writes (hs : s.Sound) (hx : s.slot? x = some b) (hP : P (.relabel x)) :
    s.Writes P (s.ensureHandle b) := by
  unfold ensureHandle
  split
  · exact .refl
  · exact .single hP (write_modify hs hx _ (fun _ => rfl) fun _ => rfl)

theorem samePlaces_ensureHandle (s : State) (b : BindingId) : s.SamePlaces (s.ensureHandle b) := by
  unfold ensureHandle
  split
  · exact .refl s
  · exact s.samePlaces_modify b _ _

theorem get_ensureHandle_of_ne {c : BindingId} (h : c ≠ b) :
    (s.ensureHandle b).store.get c = s.store.get c := by
  unfold ensureHandle
  split
  · rfl
  · exact Store.get_modify_of_ne _ h

theorem get_ensureHandle {α : Type} (s : State) (b : BindingId) (p : Binding → α)
    (hp : ∀ (a : Binding) h, p { a with handle := h } = p a) (c : BindingId) :
    p ((s.ensureHandle b).store.get c) = p (s.store.get c) := by
  unfold ensureHandle
  split
  · rfl
  · exact Store.get_modify_field _ p (fun a => hp a _) c

theorem references_ensureHandle (s : State) (b : BindingId) :
    (s.ensureHandle b).references = s.references := by
  unfold ensureHandle
  split <;> rfl

/-! ## Aliases -/

theorem write_alias (hs : s.Sound) (hx : s.slot? x = some b) (noEntry : ∀ k, x ≠ .object k)
    {key : String} {entry : BindingId} (he : s.slot? (.object key) = some entry)
    {f : Binding → Binding} (reference : ∀ a, (f a).reference = some key)
    (children : ∀ a, (f a).children = a.children) :
    s.Write (.link x) { s with store := (s.store.share b entry).modify b f } := by
  have hb := hs.has hx
  have hb' : (s.store.share b entry).Has b := (Store.has_modify ..).2 hb
  refine .link hx noEntry he ⟨fun y => by cases y <;> rfl, fun _ => rfl, fun c => ?_, fun _ => Iff.rfl⟩
    (fun c hc => ?_) ?_ ?_
  · simp [Store.share]
  · exact (Store.get_modify_of_ne f hc).trans (Store.get_share_of_ne hc entry)
  · exact (congrArg _ (Store.get_modify_self f hb')).trans (reference _)
  · refine (congrArg _ (Store.get_modify_self f hb')).trans ((children _).trans ?_)
    rw [Store.get_share_self hb]

theorem link_writes (hs : s.Sound) (hx : s.slot? x = some b) (noEntry : ∀ k, x ≠ .object k)
    {key : String} {entry : BindingId} (he : s.slot? (.object key) = some entry)
    (hP : P (.link x)) (hP' : P (.relabel x)) : s.Writes P (s.link b entry key) := by
  have w : s.Write (.link x) _ := write_alias hs hx noEntry he
    (f := fun binding =>
      { binding with
        reference := some key
        value := (s.store.get entry).value
        typeName := if binding.typeName = "" then (s.store.get entry).typeName
          else binding.typeName })
    (fun _ => rfl) fun _ => rfl
  exact (Writes.single hP w).trans
    (ensureHandle_writes (w.sound hs) (w.slot_of_some hx) hP')

theorem join_writes (hs : s.Sound) (hx : s.slot? x = some b) (noEntry : ∀ k, x ≠ .object k)
    {key : String} {entry : BindingId} (he : s.slot? (.object key) = some entry) (leaf : String)
    (hP : P (.link x)) (hP' : P (.relabel x)) : s.Writes P (s.join b entry key leaf) := by
  unfold join
  split
  · exact .refl
  · have w : s.Write (.link x) _ := write_alias hs hx noEntry he
      (f := fun binding =>
        { binding with reference := some key, value := (s.store.get entry).value })
      (fun _ => rfl) fun _ => rfl
    exact (Writes.single hP w).trans
      (ensureHandle_writes (w.sound hs) (w.slot_of_some hx) hP')

/-- What joining does, unless the variable stays with its first object. -/
theorem get_join (hb : s.store.Has b) (entry : BindingId) {leaf : String} (key : String)
    (h : ¬ (leaf = "this" ∧ (s.store.get b).reference.isSome)) :
    s.SamePlaces (s.join b entry key leaf) ∧
      (∀ c, c ≠ b → (s.join b entry key leaf).store.get c = s.store.get c) ∧
      ((s.join b entry key leaf).store.get b).reference = some key ∧
      ((s.join b entry key leaf).store.get b).children = (s.store.get entry).children := by
  have hb' : (s.store.share b entry).Has b := (Store.has_modify ..).2 hb
  have same := (s.samePlaces_modify b (fun binding =>
    { binding with children := (s.store.get entry).children }) s.handles).trans
    (samePlaces_modify _ b (fun binding =>
      { binding with reference := some key, value := (s.store.get entry).value }) s.handles)
  rw [join, if_neg h]
  dsimp only
  refine ⟨same.trans (samePlaces_ensureHandle _ b), fun c hc => ?_, ?_, ?_⟩
  · rw [get_ensureHandle_of_ne hc]
    exact (Store.get_modify_of_ne _ hc).trans (Store.get_share_of_ne hc entry)
  · rw [get_ensureHandle _ b Binding.reference fun _ _ => rfl, Store.get_modify_self _ hb']
  · rw [get_ensureHandle _ b Binding.children fun _ _ => rfl, Store.get_modify_self _ hb',
      Store.get_share_self hb]

end Parts

/-! ## New bindings -/

section New

variable {P : Effect → Prop} {s : State} {parent : BindingId}

/-- **After looking up or making a child, its place holds it**, and the other places hold what they
held. -/
theorem slot?_childOrCreate (hc : s.store.HasCollection (s.store.get parent).children)
    (name : String) (y : Slot) :
    (s.childOrCreate parent name).2.slot? y =
      if y = .field (s.store.get parent).children name then some (s.childOrCreate parent name).1
      else s.slot? y := by
  cases y with
  | field c n =>
    simp only [slot?, Slot.field.injEq]
    exact s.store.get?_collection_childOrCreate parent name hc c n
  | _ => rfl

theorem write_childOrCreate {name : String} (hs : s.Sound) (hp : s.store.Has parent)
    (vacant : s.slot? (.field (s.store.get parent).children name) = none) :
    s.Write (.place (.field (s.store.get parent).children name))
      (s.childOrCreate parent name).2 := by
  have hslot := slot?_childOrCreate (hs.hasCollection hp) name
  have hnew := s.store.childOrCreate_of_none parent name vacant
  have hstore : (s.childOrCreate parent name).2.store = (s.store.childOrCreate parent name).2 := rfl
  have hfst : (s.childOrCreate parent name).1 = (s.store.create name "" "").1 :=
    congrArg Prod.fst hnew
  have hget : (s.childOrCreate parent name).2.store.get (s.store.create name "" "").1 =
      { name, children := ⟨s.store.collections.size⟩ } := by
    rw [hstore, hnew]
    exact s.store.get_create_self name "" ""
  -- the collection of the child is new
  have hown : ¬ s.store.HasCollection ⟨s.store.collections.size⟩ := Nat.lt_irrefl _
  refine .place vacant
    { fresh := s.store.not_has_create name "" ""
      slots := fun y hy => by rw [hslot, if_neg hy]
      tables := fun c hc => ?_
      slot := fun c h => ?_
      has := fun c => ?_
      hasCollection := fun c h => ?_
      others := fun c h => ?_
      childless := fun n => ?_
      ownCollection := ?_
      keyed := fun _ h => by cases h
      plain := fun _ => by rw [hget] } ?_
  · have hne : c ≠ (s.store.get parent).children := fun e => hc name (e ▸ rfl)
    rw [hstore, hnew, Store.collection_modifyCollection_of_ne _ hne, Store.collection_create]
  · rw [hslot, if_pos rfl, hfst] at h
    exact .inl (Option.some.inj h).symm
  · rw [hstore, hnew]
    exact s.store.has_create name "" "" c
  · rw [hstore, hnew, Store.hasCollection_modifyCollection]
    exact (s.store.hasCollection_create name "" "" c).2 (.inl h)
  · rw [hstore, hnew]
    exact s.store.get_create_of_ne name "" "" h
  · rw [hget, hslot, if_neg]
    · simp only [slot?, s.store.collection_of_not_has hown, Table.get?_empty]
    · intro e
      have he : (⟨s.store.collections.size⟩ : CollectionId) = (s.store.get parent).children :=
        (Slot.field.inj e).1
      exact hown (he ▸ hs.hasCollection hp)
  · rw [hget, hstore, hnew, Store.hasCollection_modifyCollection]
    exact (s.store.hasCollection_create name "" "" _).2 (.inr rfl)
  · rw [hslot, if_pos rfl, hfst]

theorem childOrCreate_writes (hs : s.Sound) (hp : s.store.Has parent) (name : String)
    (hP : P (.place (.field (s.store.get parent).children name))) :
    s.Writes P (s.childOrCreate parent name).2 := by
  cases h : s.slot? (.field (s.store.get parent).children name) with
  | some c =>
    have hc : (s.childOrCreate parent name).2 = s := by
      simp only [childOrCreate, s.store.childOrCreate_of_some parent name h]
    rw [hc]
    exact .refl
  | none => exact .single hP (write_childOrCreate hs hp h)

/-- **After looking up or making the entry of an object, its place holds it**, and the other places
hold what they held. -/
theorem slot?_referenceEntry (s : State) (key : String) (y : Slot) :
    (s.referenceEntry key).2.slot? y =
      if y = .object key then some (s.referenceEntry key).1 else s.slot? y := by
  cases h : s.references.get? key with
  | some entry =>
    have he : s.referenceEntry key = (entry, s) := by simp only [referenceEntry, h]
    rw [he]
    split
    · next e => rw [e]; exact h
    · rfl
  | none =>
    simp only [referenceEntry, h]
    cases y with
    | field c n =>
      simp only [slot?, createBlank, Store.collection_modify, Store.collection_create]
      rw [if_neg (by simp)]
    | object k =>
      simp only [slot?, Slot.object.injEq]
      exact Table.get?_insert ..
    | _ => rfl

theorem write_referenceEntry {key : String} (vacant : s.slot? (.object key) = none) :
    s.Write (.place (.object key)) (s.referenceEntry key).2 := by
  have hslot := slot?_referenceEntry s key
  have hnew : s.referenceEntry key = ((s.store.create "" "" "").1,
      { s with
        store := (s.store.create "" "" "").2.modify (s.store.create "" "" "").1 fun binding =>
          { binding with reference := some key }
        references := s.references.insert key (s.store.create "" "" "").1 }) := by
    have h : s.references.get? key = none := vacant
    simp only [referenceEntry, h, createBlank]
  have hb : (s.store.create "" "" "").2.Has (s.store.create "" "" "").1 :=
    (s.store.has_create "" "" "" _).2 (.inr rfl)
  have hget : (s.referenceEntry key).2.store.get (s.store.create "" "" "").1 =
      { reference := some key, children := ⟨s.store.collections.size⟩ } := by
    rw [hnew, Store.get_modify_self _ hb, Store.get_create_self]
  have hown : ¬ s.store.HasCollection ⟨s.store.collections.size⟩ := Nat.lt_irrefl _
  refine .place vacant
    { fresh := s.store.not_has_create "" "" ""
      slots := fun y hy => by rw [hslot, if_neg hy]
      tables := fun c _ => by
        rw [hnew, Store.collection_modify, Store.collection_create]
      slot := fun c h => ?_
      has := fun c => ?_
      hasCollection := fun c h => ?_
      others := fun c h => ?_
      childless := fun n => ?_
      ownCollection := ?_
      keyed := fun k hk => by rw [hget, Slot.object.inj hk]
      plain := fun h => absurd rfl (h key) } ?_
  · rw [hslot, if_pos rfl, hnew] at h
    exact .inl (Option.some.inj h).symm
  · rw [hnew, Store.has_modify]
    exact s.store.has_create "" "" "" c
  · rw [hnew, Store.hasCollection_modify]
    exact (s.store.hasCollection_create "" "" "" c).2 (.inl h)
  · rw [hnew, Store.get_modify_of_ne _ h]
    exact s.store.get_create_of_ne "" "" "" h
  · rw [hget, hslot, if_neg (by simp)]
    simp only [slot?, s.store.collection_of_not_has hown, Table.get?_empty]
  · rw [hget, hnew, Store.hasCollection_modify]
    exact (s.store.hasCollection_create "" "" "" _).2 (.inr rfl)
  · rw [hslot, if_pos rfl, hnew]

theorem referenceEntry_writes (s : State) (key : String) (hP : P (.place (.object key))) :
    s.Writes P (s.referenceEntry key).2 := by
  cases h : s.slot? (.object key) with
  | some entry =>
    have he : (s.referenceEntry key).2 = s := by
      simp only [referenceEntry, show s.references.get? key = some entry from h]
    rw [he]
    exact .refl
  | none => exact .single hP (write_referenceEntry h)

theorem get_referenceEntry {b : BindingId} (hb : s.store.Has b) (key : String) :
    (s.referenceEntry key).2.store.get b = s.store.get b := by
  cases h : s.slot? (.object key) with
  | some entry =>
    simp only [referenceEntry, show s.references.get? key = some entry from h]
  | none =>
    cases write_referenceEntry h with
    | place _ new => exact new.others b fun e => new.fresh (e ▸ hb)

end New

end State

end Retrace
