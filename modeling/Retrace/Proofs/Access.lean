import Retrace.State

/-!
# Reading after writing

What handles, stores and scopes show after each of their operations. Later modules read through
these laws and leave the lists and arrays alone.

* `Handles.get?_create`, `Handles.get?_update`, `Handles.get?_remove`: one law per operation.
* `Store.Has`, `Store.HasCollection`: the ids that a store has handed out.
* `Store.get_modify_self`, `Store.get_modify_of_ne`: changing a binding changes no other one.
* **`Store.get_create_of_ne`**, `Store.collection_create`: making a binding changes nothing that
  was there.
* `Statics.get_register`, `Statics.get?_get_insert`: the scopes of static variables.
-/

namespace Retrace

/-! ## Handles -/

namespace Handles

variable {α : Type}

theorem lookup_map_snd (g : Nat → α → α) (l : List (Nat × α)) (j : Nat) :
    (l.map fun e => (e.1, g e.1 e.2)).lookup j = (l.lookup j).map (g j) := by
  induction l with
  | nil => rfl
  | cons e l ih =>
    rw [List.map_cons, List.lookup_cons, List.lookup_cons, ih]
    by_cases h : j = e.1
    · simp [h]
    · simp [beq_false_of_ne h]

theorem lookup_filter_ne (l : List (Nat × α)) (h j : Nat) :
    (l.filter fun e => e.1 ≠ h).lookup j = if j = h then none else l.lookup j := by
  induction l with
  | nil => simp
  | cons e l ih =>
    by_cases he : e.1 = h
    · rw [List.filter_cons_of_neg (by simpa using he), ih, List.lookup_cons]
      by_cases hj : j = h
      · rw [if_pos hj, if_pos hj]
      · rw [if_neg hj, if_neg hj, beq_false_of_ne fun e' => hj (e'.trans he)]
    · rw [List.filter_cons_of_pos (by simpa using he), List.lookup_cons, ih, List.lookup_cons]
      by_cases hj : j = e.1
      · simp [hj, he]
      · simp [beq_false_of_ne hj]

@[simp] theorem get?_next (t : Handles α) : t.get? t.next = none := by
  refine List.lookup_eq_none_iff.2 fun e he => ?_
  have : e.1 < t.next := t.lt_next e.1 (List.mem_map_of_mem he)
  simpa using Nat.ne_of_gt this

theorem get?_create (t : Handles α) (a : α) (h : Nat) :
    (t.create a).get? h = if h = t.next then some a else t.get? h := by
  unfold create get?
  rw [List.lookup_append, List.lookup_cons]
  by_cases hn : h = t.next
  · subst hn
    have : t.live.lookup t.next = none := t.get?_next
    simp [this]
  · simp [beq_false_of_ne hn, hn]

theorem get?_create_of_some {t : Handles α} {h : Nat} {a : α} (ha : t.get? h = some a) (b : α) :
    (t.create b).get? h = some a := by
  rw [get?_create]
  split
  · next hh =>
    rw [hh, get?_next] at ha
    cases ha
  · exact ha

theorem get?_update (t : Handles α) (h : Nat) (f : α → α) (j : Nat) :
    (t.update h f).get? j = (t.get? j).map fun a => if j = h then f a else a :=
  lookup_map_snd (fun i a => if i = h then f a else a) t.live j

theorem get?_remove (t : Handles α) (h j : Nat) :
    (t.remove h).get? j = if j = h then none else t.get? j :=
  lookup_filter_ne t.live h j

end Handles

/-! ## Stores -/

namespace Store

/-- The store has made this binding. -/
def Has (s : Store) (b : BindingId) : Prop := b.index < s.bindings.size

/-- The store has made this collection. -/
def HasCollection (s : Store) (c : CollectionId) : Prop := c.index < s.collections.size

section Modify

variable (s : Store) (b : BindingId) (f : Binding → Binding)

@[simp] theorem has_modify (c : BindingId) : (s.modify b f).Has c ↔ s.Has c := by
  simp [Has, modify]

@[simp] theorem hasCollection_modify (c : CollectionId) :
    (s.modify b f).HasCollection c ↔ s.HasCollection c := Iff.rfl

@[simp] theorem collection_modify (c : CollectionId) :
    (s.modify b f).collection c = s.collection c := rfl

variable {s b}

theorem get_modify_self (h : s.Has b) : (s.modify b f).get b = f (s.get b) := by
  unfold Has at h
  simp [get, modify, Array.getElem_modify, h]

theorem get_modify_of_ne {c : BindingId} (h : c ≠ b) : (s.modify b f).get c = s.get c := by
  have : b.index ≠ c.index := fun e => h (by cases b; cases c; simp_all)
  simp [get, modify, Array.getElem?_modify, this]

theorem get_modify_field {α : Type} (p : Binding → α) (hf : ∀ x, p (f x) = p x) (c : BindingId) :
    p ((s.modify b f).get c) = p (s.get c) := by
  by_cases h : c = b
  · subst h
    by_cases hc : s.Has c
    · rw [get_modify_self f hc, hf]
    · unfold Has at hc
      simp [get, modify, hc]
  · rw [get_modify_of_ne f h]

theorem get_share_self (h : s.Has b) (source : BindingId) :
    (s.share b source).get b = { s.get b with children := (s.get source).children } :=
  get_modify_self _ h

theorem get_share_of_ne {c : BindingId} (h : c ≠ b) (source : BindingId) :
    (s.share b source).get c = s.get c :=
  get_modify_of_ne _ h

end Modify

section ModifyCollection

variable {s : Store} {c : CollectionId} (f : Table BindingId → Table BindingId)

@[simp] theorem get_modifyCollection (b : BindingId) :
    (s.modifyCollection c f).get b = s.get b := rfl

@[simp] theorem has_modifyCollection (b : BindingId) :
    (s.modifyCollection c f).Has b ↔ s.Has b := Iff.rfl

@[simp] theorem hasCollection_modifyCollection (d : CollectionId) :
    (s.modifyCollection c f).HasCollection d ↔ s.HasCollection d := by
  simp [HasCollection, modifyCollection]

theorem collection_modifyCollection_self (h : s.HasCollection c) :
    (s.modifyCollection c f).collection c = f (s.collection c) := by
  unfold HasCollection at h
  simp [collection, modifyCollection, Array.getElem_modify, h]

theorem collection_modifyCollection_of_ne {d : CollectionId} (h : d ≠ c) :
    (s.modifyCollection c f).collection d = s.collection d := by
  have : c.index ≠ d.index := fun e => h (by cases c; cases d; simp_all)
  simp [collection, modifyCollection, Array.getElem?_modify, this]

end ModifyCollection

section Create

variable (s : Store) (name type value : String)

theorem not_has_create : ¬ s.Has (s.create name type value).1 := by
  simp [Has, create]

theorem has_create (b : BindingId) :
    (s.create name type value).2.Has b ↔ s.Has b ∨ b = (s.create name type value).1 := by
  cases b
  simp only [Has, create, Array.size_push, Nat.lt_succ_iff_lt_or_eq, BindingId.mk.injEq]

theorem hasCollection_create (c : CollectionId) :
    (s.create name type value).2.HasCollection c ↔ s.HasCollection c ∨ c = ⟨s.collections.size⟩ := by
  cases c
  simp only [HasCollection, create, Array.size_push, Nat.lt_succ_iff_lt_or_eq,
    CollectionId.mk.injEq]

theorem get_create_self : (s.create name type value).2.get (s.create name type value).1 =
    { name, typeName := type, value, children := ⟨s.collections.size⟩ } := by
  simp [get, create]

/-- **A new binding leaves the others alone.** -/
theorem get_create_of_ne {b : BindingId} (h : b ≠ (s.create name type value).1) :
    (s.create name type value).2.get b = s.get b := by
  have : b.index ≠ s.bindings.size := fun e => h (by cases b; simp_all [create])
  simp [get, create, Array.getElem?_push, this]

@[simp] theorem collection_create (c : CollectionId) :
    (s.create name type value).2.collection c = s.collection c := by
  by_cases h : c.index = s.collections.size
  · simp [collection, create, h]
  · simp [collection, create, Array.getElem?_push, h]

theorem collection_of_not_has {c : CollectionId} (h : ¬ s.HasCollection c) :
    s.collection c = .empty := by
  unfold HasCollection at h
  simp [collection, h]

end Create

/-! ### Children -/

section Children

variable (s : Store) (b : BindingId) (name : String)

theorem childOrCreate_of_some {c : BindingId} (h : s.child? b name = some c) :
    s.childOrCreate b name = (c, s) := by
  simp [childOrCreate, h]

theorem childOrCreate_of_none (h : s.child? b name = none) :
    s.childOrCreate b name = ((s.create name "" "").1,
      (s.create name "" "").2.modifyCollection (s.get b).children
        (·.insert name (s.create name "" "").1)) := by
  simp [childOrCreate, h]

/-- **After looking up or making a child, its collection shows it**, and nothing else has
changed. -/
theorem get?_collection_childOrCreate (h : s.HasCollection (s.get b).children) (c : CollectionId)
    (n : String) :
    ((s.childOrCreate b name).2.collection c).get? n =
      if c = (s.get b).children ∧ n = name then some (s.childOrCreate b name).1
      else (s.collection c).get? n := by
  cases hc : s.child? b name with
  | some child =>
    rw [childOrCreate_of_some s b name hc]
    split
    · next e => rw [e.1, e.2]; exact hc
    · rfl
  | none =>
    rw [childOrCreate_of_none s b name hc]
    by_cases e : c = (s.get b).children
    · subst e
      rw [collection_modifyCollection_self _ ((s.hasCollection_create name "" "" _).2 (.inl h)),
        Table.get?_insert, collection_create]
      simp
    · rw [collection_modifyCollection_of_ne _ e, collection_create, if_neg fun e' => e e'.1]

end Children

end Store

/-! ## Static variables -/

namespace Statics

variable (s : Statics)

@[simp] theorem get_createDetached (i : ScopeId) : s.createDetached.2.get i = s.get i := by
  by_cases h : i.index = s.scopes.size
  · simp [get, createDetached, h]
  · simp [get, createDetached, Array.getElem?_push, h]

@[simp] theorem get_register (className : String) (i : ScopeId) :
    (s.register className).2.get i = s.get i := by
  unfold register
  split
  · rfl
  · exact s.get_createDetached i

theorem get?_get_insert (i j : ScopeId) (name n : String) (b : BindingId) :
    ((s.insert i name b).get j).get? n = (s.get j).get? n ∨
      j = i ∧ n = name ∧ ((s.insert i name b).get j).get? n = some b := by
  by_cases hj : j = i
  · subst hj
    by_cases hs : j.index < s.scopes.size
    · have hget : (s.insert j name b).get j = (s.get j).insert name b := by
        simp [get, insert, Array.getElem_modify, hs]
      rw [hget, Table.get?_insert]
      by_cases hn : n = name
      · exact .inr ⟨rfl, hn, if_pos hn⟩
      · exact .inl (if_neg hn)
    · exact .inl (by simp [get, insert, hs])
  · have : i.index ≠ j.index := fun e => hj (by cases i; cases j; simp_all)
    exact .inl (by simp [get, insert, Array.getElem?_modify, this])

end Statics

end Retrace
