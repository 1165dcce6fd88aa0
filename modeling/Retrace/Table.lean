/-!
# Ordered tables

Tables from names to entries that remember in which order the names came. The children of an
object, the variables of a scope and the reference table are such tables. Storing under a name that
is already there keeps its place.

* `Table`: the type; no name occurs twice.
* `Table.get?`, `Table.insert`: look-up and storing.
* **`get?_insert`**: after storing under a name, that name shows the stored entry and every other
  name what it showed before.
* **`keys_insert`**: storing adds a new name at the end and moves none.
-/

namespace Retrace

/-- Stores `v` under `k`: in place when `k` is listed, at the end otherwise. -/
def putEntry {α : Type} (k : String) (v : α) : List (String × α) → List (String × α)
  | [] => [(k, v)]
  | (k', v') :: rest => if k' = k then (k, v) :: rest else (k', v') :: putEntry k v rest

theorem map_fst_putEntry {α : Type} (k : String) (v : α) (es : List (String × α)) :
    (putEntry k v es).map Prod.fst =
      if k ∈ es.map Prod.fst then es.map Prod.fst else es.map Prod.fst ++ [k] := by
  induction es with
  | nil => simp [putEntry]
  | cons e es ih =>
    obtain ⟨k', v'⟩ := e
    rw [putEntry]
    by_cases h : k' = k
    · simp [h]
    · have h' : ¬ k = k' := fun e => h e.symm
      rw [if_neg h, List.map_cons, ih]
      simp only [List.map_cons, List.mem_cons, h', false_or]
      split <;> simp

theorem lookup_putEntry {α : Type} (k j : String) (v : α) (es : List (String × α)) :
    (putEntry k v es).lookup j = if j = k then some v else es.lookup j := by
  induction es with
  | nil =>
    rw [putEntry, List.lookup_cons]
    by_cases h : j = k
    · simp [h]
    · simp [beq_false_of_ne h, h]
  | cons e es ih =>
    obtain ⟨k', v'⟩ := e
    rw [putEntry]
    by_cases h : k' = k
    · subst h
      rw [if_pos rfl, List.lookup_cons, List.lookup_cons]
      by_cases hj : j = k'
      · simp [hj]
      · simp [beq_false_of_ne hj, hj]
    · rw [if_neg h, List.lookup_cons, ih, List.lookup_cons]
      by_cases hj : j = k'
      · subst hj
        simp [h]
      · simp [beq_false_of_ne hj]

/-- A table from names to entries, in the order in which the names were first stored. -/
structure Table (α : Type) where
  /-- The names with their entries. -/
  entries : List (String × α) := []
  /-- No name occurs twice. -/
  nodup : (entries.map Prod.fst).Nodup := by simp

namespace Table

variable {α : Type}

theorem ext {s t : Table α} (h : s.entries = t.entries) : s = t := by
  cases s; cases t; simp_all

instance [DecidableEq α] : DecidableEq (Table α) := fun s t =>
  decidable_of_iff (s.entries = t.entries) ⟨ext, fun h => h ▸ rfl⟩

/-- The table without entries. -/
def empty : Table α := {}

instance : Inhabited (Table α) := ⟨empty⟩

/-- The entry stored under `k`. -/
def get? (t : Table α) (k : String) : Option α :=
  t.entries.lookup k

/-- Whether an entry is stored under `k`. -/
def contains (t : Table α) (k : String) : Bool :=
  (t.get? k).isSome

/-- The names in order. -/
def keys (t : Table α) : List String :=
  t.entries.map Prod.fst

/-- The entries in the order of their names. -/
def values (t : Table α) : List α :=
  t.entries.map Prod.snd

/-- The number of names. -/
def size (t : Table α) : Nat :=
  t.entries.length

/-- Stores `v` under `k`; a name that is already there keeps its place. -/
def insert (t : Table α) (k : String) (v : α) : Table α where
  entries := putEntry k v t.entries
  nodup := by
    rw [map_fst_putEntry]
    split
    · exact t.nodup
    · rename_i h
      rw [List.nodup_append]
      refine ⟨t.nodup, by simp, ?_⟩
      intro a ha b hb hab
      rw [List.mem_singleton] at hb
      exact h (hb ▸ hab ▸ ha)

@[simp] theorem get?_empty (k : String) : (empty : Table α).get? k = none := rfl

/-- **Look-up after storing.** -/
theorem get?_insert (t : Table α) (k j : String) (v : α) :
    (t.insert k v).get? j = if j = k then some v else t.get? j :=
  lookup_putEntry k j v t.entries

/-- **Order after storing.** -/
theorem keys_insert (t : Table α) (k : String) (v : α) :
    (t.insert k v).keys = if k ∈ t.keys then t.keys else t.keys ++ [k] :=
  map_fst_putEntry k v t.entries

end Table

end Retrace
