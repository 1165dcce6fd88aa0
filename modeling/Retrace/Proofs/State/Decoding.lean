import Retrace.Proofs.State.Writes

/-!
# What decoding writes

Writing an object field by field goes into the collections of the children that the fields name,
and such a collection may be held by other bindings too. So the places written are computed along
with the states in between.

* `State.writtenInto`, `State.writtenFields`: the places that decoding writes.
* **`State.decodeFields_writes`**: decoding writes these places and no other ones.
* **`State.filled_decodeFields`**: behind the decoding all of them hold bindings.
-/

namespace Retrace

namespace State

mutual

/-- The places that writing a value into a binding writes, below that binding. -/
def writtenInto (s : State) (child : BindingId) : Literal → List Slot
  | .object fields =>
    ((s.mapStore (·.setValue child "")).ensureHandle child).writtenFields child fields
  | .quoted _ | .bare _ | .array _ => []

/-- The places that writing the fields of an object into the children of `parent` writes. -/
def writtenFields (s : State) (parent : BindingId) : List (String × Literal) → List Slot
  | [] => []
  | (name, v) :: fields =>
    let (child, s') := s.childOrCreate parent name
    .field (s.store.get parent).children name ::
      (s'.writtenInto child v ++ (s'.decodeInto child v).writtenFields parent fields)

end

section Decode

variable {P : Effect → Prop} {s : State} {c : CollectionId} {name : String} {child : BindingId}

theorem key?_of_knownObject {v : Literal} {key : String} {entry : BindingId}
    (h : s.knownObject? v = some (key, entry)) : v.key? = some key := by
  simp only [knownObject?, Option.bind_eq_some_iff, Option.map_eq_some_iff] at h
  obtain ⟨k, hk, e, -, he⟩ := h
  rw [hk, ← (Prod.mk.inj he).1]

theorem slot?_of_knownObject {v : Literal} {key : String} {entry : BindingId}
    (h : s.knownObject? v = some (key, entry)) : s.slot? (.object key) = some entry := by
  simp only [knownObject?, Option.bind_eq_some_iff, Option.map_eq_some_iff] at h
  obtain ⟨k, -, e, hr, he⟩ := h
  cases he
  exact hr

theorem decodeLeaf_writes (hs : s.Sound) (hx : s.slot? (.field c name) = some child)
    (v : Literal) (hP : ∀ e, ¬ e.Repoints → e.slot = .field c name → P e) :
    s.Writes P (s.decodeLeaf child v) := by
  have hR : P (.relabel (.field c name)) := hP _ id rfl
  unfold decodeLeaf
  split
  · next h =>
    exact link_writes hs hx (fun _ => by simp) (slot?_of_knownObject h) (hP _ id rfl) hR
  · exact setValue_writes hs hx _ hR

mutual

theorem decodeInto_writes {s : State} {c : CollectionId} {name : String} {child : BindingId}
    (hs : s.Sound) (hx : s.slot? (.field c name) = some child) (v : Literal)
    (hP : ∀ e, ¬ e.Repoints → e.slot = .field c name ∨ e.slot ∈ s.writtenInto child v → P e) :
    s.Writes P (s.decodeInto child v) := by
  have hP' : ∀ e, ¬ e.Repoints → e.slot = .field c name → P e := fun e he h => hP e he (.inl h)
  match v with
  | .object fields =>
    rw [decodeInto]
    have hR : P (.relabel (.field c name)) := hP' _ id rfl
    have w := setValue_writes (P := P) hs hx "" hR
    have w' := w.trans (ensureHandle_writes (w.sound hs) (w.slot_of_some hx) hR)
    have hs' := w'.sound hs
    refine w'.trans (decodeFields_writes hs' (hs'.has (w'.slot_of_some hx)) fields ?_)
    intro e he hm
    rw [writtenInto] at hP
    exact hP e he (.inr hm)
  | .quoted _ =>
    rw [decodeInto]
    exact decodeLeaf_writes hs hx _ hP'
  | .bare _ =>
    rw [decodeInto]
    exact decodeLeaf_writes hs hx _ hP'
  | .array _ =>
    rw [decodeInto]
    exact decodeLeaf_writes hs hx _ hP'

/-- **Decoding writes the places listed.** -/
theorem decodeFields_writes {s : State} {parent : BindingId} (hs : s.Sound)
    (hp : s.store.Has parent) (fields : List (String × Literal))
    (hP : ∀ e, ¬ e.Repoints → e.slot ∈ s.writtenFields parent fields → P e) :
    s.Writes P (s.decodeFields parent fields) := by
  match fields with
  | [] =>
    rw [decodeFields]
    exact .refl
  | (name, v) :: fields =>
    rw [writtenFields] at hP
    rw [decodeFields]
    have w := childOrCreate_writes (P := P) hs hp name (hP _ id List.mem_cons_self)
    have hs' := w.sound hs
    have hx := (slot?_childOrCreate (hs.hasCollection hp) name _).trans (if_pos rfl)
    have w' := decodeInto_writes hs' hx v fun e he h => hP e he
      (h.elim (fun h => h ▸ List.mem_cons_self) fun h => by simp [h])
    have w'' := w.trans w'
    exact w''.trans (decodeFields_writes (w'.sound hs') (w''.has hp) fields fun e he h =>
      hP e he (by simp [h]))

end

mutual

theorem filled_decodeInto {s : State} {c : CollectionId} {name : String} {child : BindingId}
    (hs : s.Sound) (hx : s.slot? (.field c name) = some child) (v : Literal) {y : Slot}
    (hy : y ∈ s.writtenInto child v) : ((s.decodeInto child v).slot? y).isSome := by
  match v with
  | .object fields =>
    rw [writtenInto] at hy
    rw [decodeInto]
    have w := setValue_writes (P := fun _ => True) hs hx "" trivial
    have w' := w.trans (ensureHandle_writes (w.sound hs) (w.slot_of_some hx) trivial)
    have hs' := w'.sound hs
    exact filled_decodeFields hs' (hs'.has (w'.slot_of_some hx)) fields hy
  | .quoted _ | .bare _ | .array _ => simp [writtenInto] at hy

/-- **The places listed hold bindings behind the decoding.** -/
theorem filled_decodeFields {s : State} {parent : BindingId} (hs : s.Sound)
    (hp : s.store.Has parent) (fields : List (String × Literal)) {y : Slot}
    (hy : y ∈ s.writtenFields parent fields) :
    ((s.decodeFields parent fields).slot? y).isSome := by
  match fields with
  | [] => simp [writtenFields] at hy
  | (name, v) :: fields =>
    rw [writtenFields] at hy
    rw [decodeFields]
    have w := childOrCreate_writes (P := fun _ => True) hs hp name trivial
    have hs' := w.sound hs
    have hx := (slot?_childOrCreate (hs.hasCollection hp) name _).trans (if_pos rfl)
    have w' := decodeInto_writes (P := fun _ => True) hs' hx v fun _ _ _ => trivial
    have hp' := (w.trans w').has hp
    have w'' := decodeFields_writes (P := fun _ => True) (w'.sound hs') hp' fields
      fun _ _ _ => trivial
    rcases List.mem_cons.1 hy with rfl | hy
    · exact Option.isSome_of_eq_some (w''.slot_of_some (w'.slot_of_some hx))
    rcases List.mem_append.1 hy with hy | hy
    · obtain ⟨b, hb⟩ := Option.isSome_iff_exists.1 (filled_decodeInto hs' hx v hy)
      exact Option.isSome_of_eq_some (w''.slot_of_some hb)
    · exact filled_decodeFields (w'.sound hs') hp' fields hy

end

end Decode

end State

end Retrace
