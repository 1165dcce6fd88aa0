import Retrace.Proofs.Overlay.Passes
import Retrace.Proofs.Replay.Turns
import Retrace.Proofs.Tables

/-!
# Overlays keep aliases

Bindings that refer to one object hold the collection of its entry. No touch of an overlay ends
this: the collection of an entry is never changed for another one, and a child or variable that
leaves its object forgets the key.

* `State.Aliased`: whoever refers to an object holds the collection of its entry.
* `State.Touch.aliased`: touches keep it so.
* **`State.aliased_overlay`**: overlays keep it so, whatever the snapshot.
-/

namespace Retrace

namespace State

/-- **Aliases**: a binding that refers to an object holds the collection of the object's entry, and
the entry refers to the object itself. -/
structure Aliased (s : State) : Prop where
  shares : ∀ {b key}, (s.store.get b).reference = some key →
    ∃ entry, s.references.get? key = some entry ∧
      (s.store.get b).children = (s.store.get entry).children
  keyed : ∀ {key entry}, s.references.get? key = some entry →
    (s.store.get entry).reference = some key

/-- It is enough to look at the bindings of the store and at the known objects. -/
theorem aliased_iff (s : State) : s.Aliased ↔
    (∀ i < s.store.size, ∀ key ∈ (s.store.get ⟨i⟩).reference,
      ∃ entry ∈ s.references.get? key,
        (s.store.get ⟨i⟩).children = (s.store.get entry).children) ∧
    ∀ key ∈ s.references.keys, ∀ entry ∈ s.references.get? key,
      (s.store.get entry).reference = some key := by
  constructor
  · intro h
    exact ⟨fun i _ key hkey => h.shares hkey, fun key _ entry he => h.keyed he⟩
  · intro ⟨shares, keyed⟩
    refine ⟨fun {b key} hkey => ?_, fun {key entry} he => ?_⟩
    · refine shares b.index (Classical.byContradiction fun hn => ?_) key hkey
      rw [Store.get_of_not_has hn] at hkey
      cases hkey
    · exact keyed key (Table.mem_keys_iff.2 ⟨_, he⟩) entry he

instance (s : State) : Decidable s.Aliased := decidable_of_iff _ s.aliased_iff.symm

variable {s s' : State} {b : BindingId}

namespace Aliased

theorem of_get (ha : s.Aliased) (references : s'.references = s.references)
    (reference : ∀ c, (s'.store.get c).reference = (s.store.get c).reference)
    (children : ∀ c, (s'.store.get c).children = (s.store.get c).children) : s'.Aliased where
  shares {c key} hc := by
    rw [reference] at hc
    obtain ⟨entry, he, hshared⟩ := ha.shares hc
    exact ⟨entry, references ▸ he, by rw [children, children, hshared]⟩
  keyed he := by
    rw [references] at he
    rw [reference]
    exact ha.keyed he

theorem of_others (ha : s.Aliased) (references : s'.references = s.references)
    (noEntry : ∀ key, s.references.get? key ≠ some b)
    (others : ∀ c, c ≠ b → s'.store.get c = s.store.get c)
    (self : ∀ key, (s'.store.get b).reference = some key →
      ∃ entry, s.references.get? key = some entry ∧
        (s'.store.get b).children = (s.store.get entry).children) : s'.Aliased where
  shares {c key} hc := by
    have ofEntry : ∀ {entry}, s.references.get? key = some entry →
        s'.store.get entry = s.store.get entry := fun he => others _ fun h => noEntry key (h ▸ he)
    by_cases hcb : c = b
    · subst hcb
      obtain ⟨entry, he, hshared⟩ := self key hc
      exact ⟨entry, references ▸ he, by rw [ofEntry he, hshared]⟩
    · rw [others c hcb] at hc ⊢
      obtain ⟨entry, he, hshared⟩ := ha.shares hc
      exact ⟨entry, references ▸ he, by rw [ofEntry he, hshared]⟩
  keyed {key entry} he := by
    rw [references] at he
    rw [others entry fun h => noEntry key (h ▸ he)]
    exact ha.keyed he

theorem create (ha : s.Aliased) (h : s.Closed) (name type value : String) :
    (s.mapStore fun store => (store.create name type value).2).Aliased := by
  refine ha.of_others rfl (fun key => not_slot?_create h name type value (.object key))
    (fun c hc => Store.get_create_of_ne _ _ _ _ hc) fun key hkey => ?_
  rw [show (s.mapStore fun store => (store.create name type value).2).store =
    (s.store.create name type value).2 from rfl, Store.get_create_self] at hkey
  cases hkey

theorem newObject (ha : s.Aliased) (h : s.Closed) {key : String}
    (unknown : s.references.get? key = none) :
    ({ s with
      store := (s.store.create "" "" "").2.modify (s.store.create "" "" "").1 fun binding =>
        { binding with reference := some key }
      references := s.references.insert key (s.store.create "" "" "").1 } : State).Aliased := by
  let b := (s.store.create "" "" "").1
  have hb : (s.store.create "" "" "").2.Has b := (Store.has_create ..).2 (.inr rfl)
  have self := Store.get_modify_self (fun binding => { binding with reference := some key }) hb
  have others : ∀ c, c ≠ b → ((s.store.create "" "" "").2.modify b fun binding =>
      { binding with reference := some key }).get c = s.store.get c := fun c hc =>
    (Store.get_modify_of_ne _ hc).trans (Store.get_create_of_ne _ _ _ _ hc)
  have ofEntry : ∀ {k entry}, s.references.get? k = some entry →
      entry ≠ b ∧ (s.references.insert key b).get? k = some entry := by
    intro k entry he
    refine ⟨fun hnew => not_slot?_create h "" "" "" (.object k)
      (he.trans (congrArg some hnew)), ?_⟩
    rw [Table.get?_insert, if_neg, he]
    rintro rfl
    rw [unknown] at he
    cases he
  refine ⟨fun {c k} hc => ?_, fun {k entry} he => ?_⟩
  · by_cases hcb : c = b
    · subst hcb
      rw [self] at hc
      cases hc
      exact ⟨b, by rw [Table.get?_insert, if_pos rfl], rfl⟩
    · dsimp only at hc ⊢
      rw [others c hcb] at hc ⊢
      obtain ⟨entry, he, hshared⟩ := ha.shares hc
      obtain ⟨hne, hkept⟩ := ofEntry he
      exact ⟨entry, hkept, by rw [others entry hne, hshared]⟩
  · dsimp only at he ⊢
    rw [Table.get?_insert] at he
    split at he
    · next hk =>
      cases he
      rw [self, hk]
    · rw [others entry (ofEntry he).1]
      exact ha.keyed he

end Aliased

/-- **Touches keep aliases.** -/
theorem Touch.aliased (t : s.Touch s') (h : s.Orderly) (ha : s.Aliased) : s'.Aliased := by
  cases t with
  | relabel b labels reference =>
    exact ha.of_get rfl (Store.get_modify_field _ Binding.reference reference)
      (Store.get_modify_field _ Binding.children labels.children)
  | @number b =>
    exact ha.of_get (references_ensureHandle s b)
      (get_ensureHandle s b Binding.reference fun _ _ => rfl)
      (get_ensureHandle s b Binding.children fun _ _ => rfl)
  | @child parent _ name =>
    rcases s.childOrCreate_cases parent name with ⟨hsame, -⟩ | ⟨-, hnew⟩
    · rw [hsame]
      exact ha
    · rw [hnew]
      exact (ha.create h.toClosed name "" "").of_get rfl (fun _ => rfl) fun _ => rfl
  | @leave b inner f labels reference =>
    have hb : (s.store.detach b).Has b := (Store.has_modify ..).2 inner.has
    refine ha.of_others rfl inner.noEntry (fun c hc => ?_) fun key hkey => ?_
    · exact (Store.get_modify_of_ne _ hc).trans (Store.get_modify_of_ne _ hc)
    · change (((s.store.detach b).modify b f).get b).reference = some key at hkey
      rw [Store.get_modify_self f hb, reference] at hkey
      cases hkey
  | @link b entry key inner known f labels reference =>
    have hb : (s.store.share b entry).Has b := (Store.has_modify ..).2 inner.has
    refine ha.of_others rfl inner.noEntry (fun c hc => ?_) fun k hk => ⟨entry, ?_, ?_⟩
    · exact (Store.get_modify_of_ne _ hc).trans (Store.get_share_of_ne hc entry)
    · change (((s.store.share b entry).modify b f).get b).reference = some k at hk
      rw [Store.get_modify_self f hb, reference] at hk
      exact Option.some.inj hk ▸ known
    · show (((s.store.share b entry).modify b f).get b).children = _
      rw [Store.get_modify_self f hb, labels.children, Store.get_share_self inner.has]
  | @object key f labels reference =>
    have made : (s.referenceEntry key).2.Aliased := by
      rcases s.referenceEntry_cases key with ⟨hsame, -⟩ | ⟨hnone, -, hnew⟩
      · rw [hsame]
        exact ha
      · rw [hnew]
        exact ha.newObject h.toClosed hnone
    have hkey : ((s.referenceEntry key).2.store.get (s.referenceEntry key).1).reference = some key :=
      made.keyed ((slot?_referenceEntry s key (.object key)).trans (if_pos rfl))
    have hb := has_referenceEntry h.toClosed key
    refine made.of_get rfl (fun c => ?_) (Store.get_modify_field f Binding.children labels.children)
    show (((s.referenceEntry key).2.store.modify (s.referenceEntry key).1 f).get c).reference = _
    by_cases hc : c = (s.referenceEntry key).1
    · subst hc
      rw [Store.get_modify_self f hb, reference, hkey]
    · rw [Store.get_modify_of_ne f hc]
  | clear => exact ha.of_get rfl (fun _ => rfl) fun _ => rfl
  | create name type value => exact ha.create h.toClosed name type value
  | global has unplaced name =>
    have same := s.store_insertGlobal name
    refine ha.of_get ?_ (fun c => by rw [same]) fun c => by rw [same]
    unfold insertGlobal modifyTop
    split <;> rfl

/-- **Overlays keep aliases.** In a state without dangling ids whose entries of objects are neither
children nor variables, let every binding that refers to an object hold the collection of its entry,
and let the entries carry their keys. All of this holds under an overlay of any snapshot too, of the
objects that were known and of those that the snapshot tells of. -/
theorem aliased_overlay (closed : s.Closed) (apart : s.Apart) (aliased : s.Aliased)
    (snapshot : Snapshot) (runningTrigger : Bool) :
    let s' := s.overlay snapshot runningTrigger
    s'.Closed ∧ s'.Apart ∧ s'.Aliased := by
  intro s'
  have touches := touches_overlay ⟨closed, apart⟩ snapshot runningTrigger
  have h : s'.Orderly ∧ s'.Aliased :=
    touches.invariant (I := fun s => s.Orderly ∧ s.Aliased)
      (fun t h => ⟨t.orderly h.1, t.aliased h.1 h.2⟩) ⟨⟨closed, apart⟩, aliased⟩
  exact ⟨h.1.toClosed, h.1.apart, h.2⟩

/-- Two variables refer to one object. -/
def sharedLog : List String :=
  ["62.0 APEX_CODE,FINEST",
    "0|METHOD_ENTRY|[1]|01p|A.f()",
    "0|VARIABLE_SCOPE_BEGIN|[1]|a|A|true|false",
    "0|VARIABLE_ASSIGNMENT|[1]|a|\x7b\"y\":1\x7d|0x1",
    "0|VARIABLE_SCOPE_BEGIN|[2]|b|A|true|false",
    "0|VARIABLE_ASSIGNMENT|[2]|b|\"0x1\"|0x1",
    "0|STATEMENT_EXECUTE|[3]"]

/-- Objects refer to each other and to themselves, one address is of nothing, one is listed twice,
and a list of them is a trigger variable. -/
def cyclicSnapshot : Snapshot where
  extents :=
    [{ typeName := "A"
       captures :=
        [{ address := "0x1"
           symbols := some ["a"]
           content := { entries := some [⟨"next", .string "0x2"⟩] } },
          { address := "0x2"
            content :=
              { entries :=
                  some [⟨"back", .string "0x1"⟩, ⟨"self", .string "0x2"⟩,
                    ⟨"lost", .string "0x9"⟩] } },
          { address := "0x1"
            symbols := some ["b"]
            content := { entries := some [⟨"y", .string "7"⟩] } }] },
      { typeName := "List<A>"
        collectionType := some "A"
        captures :=
          [{ address := "0x3"
             symbols := some ["Trigger.new"]
             content := { value := .array [.object [("value", .string "0x2")]] } }] }]

set_option maxRecDepth 100000 in
/-- The overlay makes two more objects known. -/
theorem aliased_cyclicSnapshot :
    let s := ((Replay.fresh {} (fun _ => none) sharedLog).advances 2).live
    let s' := s.overlay cyclicSnapshot true
    (s.Closed ∧ s.Apart ∧ s.Aliased) ∧ (s'.Closed ∧ s'.Apart ∧ s'.Aliased) ∧
      s.references.keys = ["0x1"] ∧ s'.references.keys = ["0x1", "0x2", "0x3"] := by
  intro s s'
  have orderly : s.Orderly := (Replay.sound_advances {} (fun _ => none) sharedLog 2).2.orderly
  have aliased : s.Aliased := by decide +kernel
  have hkeys : s.references.keys = ["0x1"] ∧ s'.references.keys = ["0x1", "0x2", "0x3"] := by
    decide +kernel
  exact ⟨⟨orderly.toClosed, orderly.apart, aliased⟩,
    aliased_overlay orderly.toClosed orderly.apart aliased cyclicSnapshot true, hkeys⟩

end State

end Retrace
