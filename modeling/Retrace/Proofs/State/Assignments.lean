import Retrace.Proofs.State.Decoding

/-!
# What assignments write

* `State.written`: the children that an assignment writes.
* `State.Redirects`: the assignments that give the entry of an object the collection of another
  object.
* **`State.assign_writes_seen`**: an assignment writes the children listed and places that are no
  children, and redirects the entry of its object only when it is such an assignment.
* **`State.filled_assign`**: behind the assignment the children listed are there.
-/

namespace Retrace

namespace State

/-- The fields that a value has as an object. -/
def fieldsOf : Literal → List (String × Literal)
  | .object fields => fields
  | .quoted _ | .bare _ | .array _ => []

/-- What the name of an assignment stands for. -/
def assigned (s : State) (a : Assignment) : Assignee :=
  s.assignee (Text.ownerAndLeaf a.name).1 (Text.ownerAndLeaf a.name).2

/-- The fields that an assignment writes into its object. -/
def assignedFields (s : State) (a : Assignment) : List (String × Literal) :=
  let v := Literal.parse a.value
  match s.assigned a with
  | .field => [((Text.ownerAndLeaf a.name).2, v)]
  | .variable b => if s.showsRaw b v then [] else fieldsOf v
  | .missing => fieldsOf v

/-- The children that an assignment writes, of its object and below. -/
def written (s : State) (a : Assignment) : List Slot :=
  match a.reference with
  | none => []
  | some key =>
    let (entry, s') := s.referenceEntry key
    s'.writtenFields entry (s.assignedFields a)

/-- If the place is of a local variable, it is one of the current call. -/
def Sees (s : State) (x : Slot) : Prop :=
  ∀ frame name, x = .localVar frame name → s.top?.map Frame.id = some frame

/-- The assignment gives the object of its key the collection of another known object. -/
structure Redirects (s : State) (a : Assignment) (key : String) (known : BindingId) : Prop where
  /-- The assignment has a key. -/
  reference : a.reference = some key
  /-- Its value refers to another object. -/
  other : ∃ k, k ≠ key ∧ s.knownObject? (Literal.parse a.value) = some (k, known)
  /-- It is not about a field. -/
  noField : s.assigned a ≠ .field
  /-- Its value is not just shown. -/
  decoded : ∀ b, s.assigned a = .variable b → s.showsRaw b (Literal.parse a.value) = false

section Assign

variable {P : Effect → Prop} {s : State}

theorem slot?_of_local {name : String} {b : BindingId} (h : s.local? name = some b) :
    ∃ frame, s.slot? (.localVar frame name) = some b ∧ s.top?.map Frame.id = some frame := by
  simp only [local?, topActivation?, Option.bind_eq_some_iff] at h
  obtain ⟨activation, ⟨frame, ht, ha⟩, hb⟩ := h
  exact ⟨frame.id, by simp [slot?, ha, hb], by rw [ht, Option.map_some]⟩

/-- A variable that a name stands for is called like the last part of the name: it is a local one of
the current call, or a static one. -/
theorem slot?_leaf_of_assignee {owner : Option String} {leaf : String} {b : BindingId}
    (h : s.assignee owner leaf = .variable b) :
    (∃ frame, s.slot? (.localVar frame leaf) = some b ∧ s.top?.map Frame.id = some frame) ∨
      ∃ i, s.slot? (.static i leaf) = some b := by
  have elim : ∀ {o : Option BindingId} {d : Assignee}, (∀ c, d ≠ .variable c) →
      o.elim d .variable = .variable b → o = some b := by
    rintro (_ | c) d hd h
    · exact absurd h (hd b)
    · exact congrArg some (Assignee.variable.inj h)
  unfold assignee at h
  split at h
  · have h := elim (by simp) h
    simp only [unqualified?, Option.bind_eq_some_iff, Option.or_eq_some_iff] at h
    obtain ⟨activation, ha, hl | ⟨-, hs⟩⟩ := h
    · exact .inl (slot?_of_local (by simp [local?, ha, hl]))
    · exact .inr ⟨activation.statics, hs⟩
  · split at h
    · next statics hc =>
      have h := elim (by simp) h
      simp only [Statics.staticsOf?, Option.map_eq_some_iff] at hc
      obtain ⟨i, -, rfl⟩ := hc
      exact .inr ⟨i, h⟩
    · exact .inl (slot?_of_local (elim (by simp) h))

theorem slot?_of_assignee {owner : Option String} {leaf : String} {b : BindingId}
    (h : s.assignee owner leaf = .variable b) :
    ∃ x : Slot, x.IsVariable ∧ s.slot? x = some b ∧ s.Sees x := by
  rcases slot?_leaf_of_assignee h with ⟨frame, hx, htop⟩ | ⟨i, hx⟩
  · refine ⟨.localVar frame leaf, trivial, hx, fun f n e => ?_⟩
    cases e
    exact htop
  · exact ⟨.static i leaf, trivial, hx, fun _ _ e => by cases e⟩

theorem assignObject_writes (hs : s.Sound) {key : String} {entry : BindingId}
    (he : s.slot? (.object key) = some entry) (v : Literal) (hP : P (.relabel (.object key)))
    (fields : ∀ e, ¬ e.Repoints → e.slot ∈ s.writtenFields entry (fieldsOf v) → P e)
    (redirects : ∀ k known, s.knownObject? v = some (k, known) → known ≠ entry →
      P (.repoint key)) : s.Writes P (s.assignObject entry v) := by
  unfold assignObject
  split
  · have w := decodeFields_writes hs (hs.has he) _ fields
    exact w.trans (setValue_writes (w.sound hs) (w.slot_of_some he) "" hP)
  · split
    · next k known h =>
      split
      · exact .refl
      · next hne =>
        refine .single (redirects k known h hne) (.repoint he (slot?_of_knownObject h)
          (s.samePlaces_modify entry _ s.handles) (fun c hc => Store.get_share_of_ne hc known)
          ?_ ?_)
        all_goals
          simp only [mapStore]
          rw [Store.get_share_self (hs.has he)]
    · exact setValue_writes hs he _ hP

theorem assignObject_of_known {v : Literal} {k : String} {known entry : BindingId}
    (h : s.knownObject? v = some (k, known)) (hne : known ≠ entry) :
    s.assignObject entry v = s.mapStore (·.share entry known) := by
  unfold assignObject
  split
  · have := key?_of_knownObject h
    cases this
  · rw [h]
    exact if_neg hne

theorem assignField_eq (s : State) (entry : BindingId) (leaf : String) (v : Literal) :
    s.assignField entry leaf v =
      (s.decodeFields entry [(leaf, v)]).mapStore (·.setValue entry "") := by
  simp only [decodeFields, assignField]

theorem assignField_writes (hs : s.Sound) {key leaf : String} {entry : BindingId}
    (he : s.slot? (.object key) = some entry) (v : Literal) (hP : P (.relabel (.object key)))
    (fields : ∀ e, ¬ e.Repoints → e.slot ∈ s.writtenFields entry [(leaf, v)] → P e) :
    s.Writes P (s.assignField entry leaf v) := by
  have w := decodeFields_writes hs (hs.has he) _ fields
  rw [assignField_eq]
  exact w.trans (setValue_writes (w.sound hs) (w.slot_of_some he) "" hP)

theorem assign_of_keyless {a : Assignment} (h : a.reference = none) :
    s.assign a =
      match s.assigned a with
      | .variable b => s.mapStore (·.setValue b a.value)
      | .field | .missing => s := by
  simp only [assign, assigned, h]
  cases s.assignee (Text.ownerAndLeaf a.name).1 (Text.ownerAndLeaf a.name).2 <;> rfl

theorem assign_of_key {a : Assignment} {key : String} (h : a.reference = some key) :
    s.assign a =
      let leaf := (Text.ownerAndLeaf a.name).2
      let v := Literal.parse a.value
      let (entry, s') := s.referenceEntry key
      match s.assigned a with
      | .variable b =>
        if s.showsRaw b v then s.mapStore (·.setValue b a.value)
        else (s'.assignObject entry v).join b entry key leaf
      | .field => s'.assignField entry leaf v
      | .missing => s'.assignObject entry v := by
  simp only [assign, assigned, h]
  cases s.assignee (Text.ownerAndLeaf a.name).1 (Text.ownerAndLeaf a.name).2 <;> rfl

/-- Another known object is one that was known before the entry was looked up. -/
theorem Redirects.of_referenceEntry {a : Assignment} {key k : String} {known : BindingId}
    (reference : a.reference = some key)
    (other : (s.referenceEntry key).2.knownObject? (Literal.parse a.value) = some (k, known))
    (hne : known ≠ (s.referenceEntry key).1) (noField : s.assigned a ≠ .field)
    (decoded : ∀ b, s.assigned a = .variable b → s.showsRaw b (Literal.parse a.value) = false) :
    s.Redirects a key known := by
  have hk := slot?_of_knownObject other
  rw [slot?_referenceEntry] at hk
  have hkey : k ≠ key := by
    rintro rfl
    rw [if_pos rfl] at hk
    exact hne (Option.some.inj hk).symm
  rw [if_neg (by simpa using hkey)] at hk
  refine ⟨reference, ⟨k, hkey, ?_⟩, noField, decoded⟩
  have hr : s.references.get? k = some known := hk
  simp [knownObject?, key?_of_knownObject other, hr]

theorem Redirects.unique {a : Assignment} {key key' : String} {known known' : BindingId}
    (h : s.Redirects a key known) (h' : s.Redirects a key' known') : key = key' ∧ known = known' := by
  obtain ⟨k, -, ho⟩ := h.other
  obtain ⟨k', -, ho'⟩ := h'.other
  cases h.reference.symm.trans h'.reference
  cases ho.symm.trans ho'
  exact ⟨rfl, rfl⟩

theorem Redirects.known {a : Assignment} {key : String} {known : BindingId} (hs : s.Sound)
    (h : s.Redirects a key known) :
    ∃ k, (s.referenceEntry key).2.knownObject? (Literal.parse a.value) = some (k, known) ∧
      known ≠ (s.referenceEntry key).1 := by
  obtain ⟨k, hk, ho⟩ := h.other
  have hslot : (s.referenceEntry key).2.slot? (.object k) = some known := by
    rw [slot?_referenceEntry, if_neg (by simpa using hk), slot?_of_knownObject ho]
  refine ⟨k, ?_, ?_⟩
  · have hr : (s.referenceEntry key).2.references.get? k = some known := hslot
    simp [knownObject?, key?_of_knownObject ho, hr]
  · intro e
    have hs' := (referenceEntry_writes (P := fun _ => True) s key trivial).sound hs
    have he := (slot?_referenceEntry s key _).trans (if_pos rfl)
    exact hk (Slot.object.inj (hs'.unique hslot (e ▸ he)))

/-- **Assignments are sequences of writes**: of the children listed, of places that are no
children and no local variables of other calls, and of a new collection for the entry of the object
when another object is assigned. -/
theorem assign_writes_seen (hs : s.Sound) (a : Assignment)
    (roots : ∀ e, ¬ e.Repoints → e.slot.IsRoot → s.Sees e.slot → P e)
    (fields : ∀ e, ¬ e.Repoints → e.slot ∈ s.written a → P e)
    (redirects : ∀ key known, s.Redirects a key known → P (.repoint key)) :
    s.Writes P (s.assign a) := by
  cases hr : a.reference with
  | none =>
    rw [assign_of_keyless hr]
    split
    · next b h =>
      obtain ⟨x, hv, hx, hsees⟩ := slot?_of_assignee h
      exact setValue_writes hs hx _ (roots _ id (.inl hv) hsees)
    · exact .refl
    · exact .refl
  | some key =>
    -- the entry of the object is there before anything else is written
    have hsees : s.Sees (.object key) := fun _ _ e => by cases e
    have w := referenceEntry_writes (P := P) s key (roots _ id (.inr ⟨key, rfl⟩) hsees)
    have hs' := w.sound hs
    have he := (slot?_referenceEntry s key _).trans (if_pos rfl)
    have hP : P (.relabel (.object key)) := roots _ id (.inr ⟨key, rfl⟩) hsees
    rw [written, hr] at fields
    rw [assign_of_key hr]
    dsimp only
    rcases h : s.assigned a with b | _ | _
    · obtain ⟨x, hv, hx, hseen⟩ := slot?_of_assignee h
      dsimp only
      split
      · exact setValue_writes hs hx _ (roots _ id (.inl hv) hseen)
      · next hraw =>
        rw [assignedFields, h] at fields
        dsimp only at fields
        rw [if_neg hraw] at fields
        have w' := assignObject_writes hs' he (Literal.parse a.value) hP fields
          fun k known ho hne => redirects key known (.of_referenceEntry hr ho hne (by simp [h])
            fun b' hb => by
              cases h.symm.trans hb
              simpa using hraw)
        have w'' := w.trans w'
        exact w''.trans (join_writes (w'.sound hs') (w''.slot_of_some hx) hv.ne_object
          (w'.slot_of_some he) _ (roots _ id (.inl hv) hseen) (roots _ id (.inl hv) hseen))
    · rw [assignedFields, h] at fields
      exact w.trans (assignField_writes hs' he _ hP fields)
    · rw [assignedFields, h] at fields
      exact w.trans (assignObject_writes hs' he _ hP fields fun k known ho hne =>
        redirects key known (.of_referenceEntry hr ho hne (by simp [h]) (by simp [h])))

theorem assign_writes (hs : s.Sound) (a : Assignment)
    (roots : ∀ e, ¬ e.Repoints → e.slot.IsRoot → P e)
    (fields : ∀ e, ¬ e.Repoints → e.slot ∈ s.written a → P e)
    (redirects : ∀ key known, s.Redirects a key known → P (.repoint key)) :
    s.Writes P (s.assign a) :=
  assign_writes_seen hs a (fun e he hr _ => roots e he hr) fields redirects

theorem filled_assignObject (hs : s.Sound) {key : String} {entry : BindingId}
    (he : s.slot? (.object key) = some entry) (v : Literal) {y : Slot}
    (hy : y ∈ s.writtenFields entry (fieldsOf v)) :
    ((s.assignObject entry v).slot? y).isSome := by
  match v with
  | .object fields =>
    obtain ⟨b, hb⟩ := Option.isSome_iff_exists.1 (filled_decodeFields hs (hs.has he) fields hy)
    exact Option.isSome_of_eq_some (((samePlaces_modify _ entry _ _).slots y).trans hb)
  | .quoted _ | .bare _ | .array _ => simp [fieldsOf, writtenFields] at hy

/-- **The children listed are there behind the assignment.** -/
theorem filled_assign (hs : s.Sound) (a : Assignment) {y : Slot} (hy : y ∈ s.written a) :
    ((s.assign a).slot? y).isSome := by
  cases hr : a.reference with
  | none => simp [written, hr] at hy
  | some key =>
    have w := referenceEntry_writes (P := fun _ => True) s key trivial
    have hs' := w.sound hs
    have he := (slot?_referenceEntry s key _).trans (if_pos rfl)
    rw [written, hr] at hy
    rw [assign_of_key hr]
    dsimp only at hy ⊢
    rcases h : s.assigned a with b | _ | _
    · rw [assignedFields, h] at hy
      dsimp only at hy ⊢
      split at hy
      · simp [writtenFields] at hy
      · next hraw =>
        rw [if_neg hraw]
        obtain ⟨x, hv, hx, -⟩ := slot?_of_assignee h
        obtain ⟨c, hc⟩ := Option.isSome_iff_exists.1 (filled_assignObject hs' he _ hy)
        have w' := assignObject_writes (P := fun _ => True) hs' he (Literal.parse a.value) trivial
          (fun _ _ _ => trivial) fun _ _ _ _ => trivial
        have w'' := join_writes (P := fun _ => True) (w'.sound hs') ((w.trans w').slot_of_some hx)
          hv.ne_object (w'.slot_of_some he) (Text.ownerAndLeaf a.name).2 trivial trivial
        exact Option.isSome_of_eq_some (w''.slot_of_some hc)
    · rw [assignedFields, h] at hy
      dsimp only
      rw [assignField_eq]
      obtain ⟨c, hc⟩ := Option.isSome_iff_exists.1 (filled_decodeFields hs' (hs'.has he) _ hy)
      exact Option.isSome_of_eq_some (((samePlaces_modify _ _ _ _).slots y).trans hc)
    · rw [assignedFields, h] at hy
      exact filled_assignObject hs' he _ hy

end Assign

end State

end Retrace
