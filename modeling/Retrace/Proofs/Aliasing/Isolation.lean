import Retrace.Proofs.Replay.Turns

/-!
# Isolation of objects

An assignment writes into its own object. It also writes into another one when the value holds an
object in a field, and the child of that field still holds the collection of the other object: the
fields of the inner object go there. So another object is kept as long as none of its children is
among those that the assignment writes.

* `State.KeepsObject`: the fields of an object stay as they are.
* `State.Write.get_of_slot`, `State.Write.collection_eq`: what a single write leaves alone.
* **`Replay.keepsObject_iff`**: when an assignment keeps the fields of another object.
-/

namespace Retrace

/-- The bindings differ in their handles at most. -/
def Binding.Agree (a b : Binding) : Prop := { a with handle := none } = { b with handle := none }

namespace State

/-- The object with the entry `e` keeps its collection, the children in it with their names and
order, and everything about them but their handles. -/
structure KeepsObject (s : State) (e : BindingId) (s' : State) : Prop where
  collection : (s'.store.get e).children = (s.store.get e).children
  table : s'.store.children e = s.store.children e
  fields : ∀ name c, s.store.child? e name = some c → (s'.store.get c).Agree (s.store.get c)

/-! ## What writes leave alone -/

section Frame

variable {P : Effect → Prop} {s s' : State}

theorem Write.get_of_slot {e : Effect} (w : s.Write e s') (hs : s.Sound) {x : Slot}
    {b : BindingId} (hx : s.slot? x = some b) (hne : e.slot ≠ x) :
    s'.store.get b = s.store.get b := by
  have apart : ∀ {y c}, s.slot? y = some c → y ≠ x → b ≠ c := by
    rintro y c hy h rfl
    exact h (hs.unique hy hx)
  cases w with
  | relabel slot _ others => exact others b (apart slot hne)
  | link slot _ _ _ others => exact others b (apart slot hne)
  | place _ new => exact new.others b fun h => new.fresh (h ▸ hs.has hx)
  | repoint slot _ _ others => exact others b (apart slot hne)

theorem Write.collection_eq {e : Effect} (w : s.Write e s') {c : CollectionId}
    (there : ∀ name, e.slot = .field c name → (s.slot? (.field c name)).isSome) :
    s'.store.collection c = s.store.collection c := by
  cases w with
  | relabel _ same => exact same.tables c
  | link _ _ _ same => exact same.tables c
  | place vacant new =>
    refine new.tables c ?_
    rintro name rfl
    have := there name rfl
    rw [vacant] at this
    cases this
  | repoint _ _ same => exact same.tables c

theorem Write.children_entry {e : Effect} (w : s.Write e s') (hs : s.Sound) {key : String}
    {b : BindingId} (hb : s.slot? (.object key) = some b) (hne : e ≠ .repoint key) :
    (s'.store.get b).children = (s.store.get b).children := by
  cases w with
  | @relabel x c _ slot _ others _ children =>
    by_cases h : b = c
    · rw [h, children]
    · rw [others b h]
  | link slot noEntry _ _ others =>
    rw [others b]
    rintro rfl
    exact noEntry key (hs.unique slot hb)
  | place _ new => rw [new.others b fun h => new.fresh (h ▸ hs.has hb)]
  | repoint slot _ _ others =>
    rw [others b]
    rintro rfl
    exact hne (congrArg Effect.repoint (Slot.object.inj (hs.unique slot hb)))

theorem Writes.get_of_slot (w : s.Writes P s') (hs : s.Sound) {x : Slot} {b : BindingId}
    (hx : s.slot? x = some b) (hne : ∀ e, P e → e.slot ≠ x) :
    s'.store.get b = s.store.get b :=
  (w.invariant
    (I := fun t => t.Sound ∧ t.slot? x = some b ∧ t.store.get b = s.store.get b)
    (fun he hw h => ⟨hw.sound h.1, hw.slot_of_some h.2.1,
      (hw.get_of_slot h.1 h.2.1 (hne _ he)).trans h.2.2⟩)
    ⟨hs, hx, rfl⟩).2.2

theorem Writes.collection_eq (w : s.Writes P s') {c : CollectionId}
    (there : ∀ e, P e → ∀ name, e.slot = .field c name → (s.slot? (.field c name)).isSome) :
    s'.store.collection c = s.store.collection c :=
  (w.invariant
    (I := fun t => (∀ x b, s.slot? x = some b → t.slot? x = some b) ∧
      t.store.collection c = s.store.collection c)
    (fun he hw h => ⟨fun x b hx => hw.slot_of_some (h.1 x b hx),
      (hw.collection_eq fun name hn => by
        obtain ⟨b, hb⟩ := Option.isSome_iff_exists.1 (there _ he name hn)
        exact Option.isSome_of_eq_some (h.1 _ b hb)).trans h.2⟩)
    ⟨fun _ _ h => h, rfl⟩).2

theorem Writes.children_entry (w : s.Writes P s') (hs : s.Sound) {key : String} {b : BindingId}
    (hb : s.slot? (.object key) = some b) (hne : ∀ e, P e → e ≠ .repoint key) :
    (s'.store.get b).children = (s.store.get b).children :=
  (w.invariant
    (I := fun t => t.Sound ∧ t.slot? (.object key) = some b ∧
      (t.store.get b).children = (s.store.get b).children)
    (fun he hw h => ⟨hw.sound h.1, hw.slot_of_some h.2.1,
      (hw.children_entry h.1 h.2.1 (hne _ he)).trans h.2.2⟩)
    ⟨hs, hb, rfl⟩).2.2

end Frame

/-! ## Assignments -/

section Assign

variable {s : State} {a : Assignment} {key : String} {e : BindingId}

theorem assign_writes_of_ne (hs : s.Sound) (hne : a.reference ≠ some key) :
    s.Writes (fun e => e ≠ .repoint key ∧ ∀ c name, e.slot = .field c name →
      .field c name ∈ s.written a) (s.assign a) := by
  refine assign_writes hs a (fun e he hr => ⟨?_, ?_⟩) (fun e he hw => ⟨?_, ?_⟩)
    fun k known h => ⟨?_, ?_⟩
  · rintro rfl
    exact he trivial
  · intro c name h
    exact absurd h (hr.ne_field c name)
  · rintro rfl
    exact he trivial
  · intro c name h
    exact h ▸ hw
  · rintro h'
    cases h'
    exact hne h.reference
  · intro c name h
    cases h

/-- **An assignment to another object keeps the children of an object** exactly when each of them
that it writes was there and ends as it was; and it keeps the names exactly when each was there. -/
theorem keepsObject_assign_iff (hs : s.Sound) (he : s.references.get? key = some e)
    (hne : a.reference ≠ some key) :
    (s.KeepsObject e (s.assign a) ↔
      ∀ name, .field (s.store.get e).children name ∈ s.written a →
        ∃ c, s.store.child? e name = some c ∧
          ((s.assign a).store.get c).Agree (s.store.get c)) ∧
    ((s.assign a).store.children e = s.store.children e ↔
      ∀ name, .field (s.store.get e).children name ∈ s.written a →
        (s.store.child? e name).isSome) := by
  have w := assign_writes_of_ne hs hne
  have hchildren : ((s.assign a).store.get e).children = (s.store.get e).children :=
    w.children_entry hs he fun _ h => h.1
  have htable : (s.assign a).store.children e =
      (s.assign a).store.collection (s.store.get e).children := by
    rw [Store.children, hchildren]
  -- a child that is written is there behind the assignment
  have filled : (s.assign a).store.children e = s.store.children e →
      ∀ name, .field (s.store.get e).children name ∈ s.written a →
        (s.store.child? e name).isSome := by
    intro h name hw
    have hf := filled_assign hs a hw
    rw [slot?, ← htable, h] at hf
    exact hf
  have kept : (∀ name, .field (s.store.get e).children name ∈ s.written a →
      (s.store.child? e name).isSome) → (s.assign a).store.children e = s.store.children e := by
    intro h
    rw [htable, w.collection_eq fun e' he' name hn => h name (he'.2 _ name hn)]
    rfl
  refine ⟨⟨fun k name hw => ?_, fun h => ?_⟩, filled, kept⟩
  · obtain ⟨c, hc⟩ := Option.isSome_iff_exists.1 (filled k.table name hw)
    exact ⟨c, hc, k.fields name c hc⟩
  · refine ⟨hchildren, kept fun name hw => ?_, fun name c hc => ?_⟩
    · obtain ⟨c, hc, -⟩ := h name hw
      exact Option.isSome_of_eq_some hc
    · by_cases hw : .field (s.store.get e).children name ∈ s.written a
      · obtain ⟨c', hc', hagree⟩ := h name hw
        cases hc.symm.trans hc'
        exact hagree
      · have hget := w.get_of_slot hs (x := .field (s.store.get e).children name) hc
          fun e' he' hn => hw (he'.2 _ name hn)
        rw [hget]
        rfl

end Assign

end State

namespace Replay

/-! ## Replays -/

/-- **Isolation in replays.** After any number of advances, an assignment line with another key
than `key` keeps the object of `key` exactly when each of its children that the line writes is there
already and ends as it was. Its children stay the same ones in the same order exactly when each
child that the line writes is there already. -/
theorem keepsObject_iff (config : Config) (resolver : Resolver) (lines : List String) (n : Nat)
    {r : Replay} (hr : r = (fresh config resolver lines).advances n) {a : Assignment}
    {key : String} {e : BindingId} (he : r.state.references.get? key = some e)
    (hne : a.reference ≠ some key) :
    (r.state.KeepsObject e (r.handle (.assignment a)).state ↔
      ∀ name, .field (r.state.store.get e).children name ∈ r.state.written a →
        ∃ c, r.state.store.child? e name = some c ∧
          ((r.handle (.assignment a)).state.store.get c).Agree (r.state.store.get c)) ∧
    ((r.handle (.assignment a)).state.store.children e = r.state.store.children e ↔
      ∀ name, .field (r.state.store.get e).children name ∈ r.state.written a →
        (r.state.store.child? e name).isSome) := by
  have hs : r.state.Sound := by
    rw [hr, ← live_advances_fresh]
    exact (sound_advances config resolver lines n).2
  exact State.keepsObject_assign_iff hs he hne

/-- The field `f` of a first object refers to a second one. -/
def linkedLog : List String :=
  ["62.0 APEX_CODE,FINEST",
    "0|METHOD_ENTRY|[1]|1|A.f()",
    "0|VARIABLE_SCOPE_BEGIN|[2]|a|A|true|false",
    "0|VARIABLE_SCOPE_BEGIN|[2]|b|A|true|false",
    "0|VARIABLE_ASSIGNMENT|[2]|b|\x7b\x22y\x22:1\x7d|0x2",
    "0|VARIABLE_ASSIGNMENT|[3]|a|\x7b\x22f\x22:\x220x2\x22\x7d|0x1",
    "0|STATEMENT_EXECUTE|[4]",
    "0|VARIABLE_ASSIGNMENT|[5]|a|\x7b\x22f\x22:\x7b\x22x\x22:7\x7d\x7d|0x1",
    "0|STATEMENT_EXECUTE|[6]"]

set_option maxRecDepth 100000 in
/-- A plain value for another field of the first object keeps the second one. -/
theorem keepsObject_linkedLog :
    let r := (fresh {} (fun _ => none) linkedLog).advances 2
    r.state.references.get? "0x2" = some ⟨2⟩ ∧
      r.state.KeepsObject ⟨2⟩ (r.handle (.assignment ⟨"a.g", "7", some "0x1"⟩)).state := by
  intro r
  obtain ⟨he, hw, hc⟩ : r.state.references.get? "0x2" = some ⟨2⟩ ∧
      r.state.written ⟨"a.g", "7", some "0x1"⟩ = [.field ⟨4⟩ "g"] ∧
      (r.state.store.get ⟨2⟩).children = ⟨2⟩ := by decide +kernel
  refine ⟨he, (keepsObject_iff {} (fun _ => none) linkedLog 2 rfl he (by decide)).1.2 ?_⟩
  intro name hm
  rw [hw, hc] at hm
  simp at hm

set_option maxRecDepth 100000 in
/-- An object for the field `f` is written into the second object. -/
theorem not_keepsObject_linkedLog :
    let r := (fresh {} (fun _ => none) linkedLog).advances 2
    let line := "0|VARIABLE_ASSIGNMENT|[5]|a|\x7b\x22f\x22:\x7b\x22x\x22:7\x7d\x7d|0x1"
    Event.ofLine line =
        .assignment ⟨"a", "\x7b\x22f\x22:\x7b\x22x\x22:7\x7d\x7d", some "0x1"⟩ ∧
      r.state.references.get? "0x1" = some ⟨4⟩ ∧ r.state.references.get? "0x2" = some ⟨2⟩ ∧
      (r.state.store.get ⟨4⟩).children ≠ (r.state.store.get ⟨2⟩).children ∧
      ¬ r.state.KeepsObject ⟨2⟩ (r.handle (Event.ofLine line)).state := by
  intro r line
  obtain ⟨hl, he, he', apart, hne⟩ : Event.ofLine line =
        .assignment ⟨"a", "\x7b\x22f\x22:\x7b\x22x\x22:7\x7d\x7d", some "0x1"⟩ ∧
      r.state.references.get? "0x1" = some ⟨4⟩ ∧ r.state.references.get? "0x2" = some ⟨2⟩ ∧
      (r.state.store.get ⟨4⟩).children ≠ (r.state.store.get ⟨2⟩).children ∧
      (r.handle (Event.ofLine line)).state.store.children ⟨2⟩ ≠ r.state.store.children ⟨2⟩ := by
    decide +kernel
  exact ⟨hl, he, he', apart, fun h => hne h.table⟩

end Replay

end Retrace
