/-!
# Handles

Numbers under which the user of a replay refers to frames and expandable values. Numbers are handed
out in increasing order from `firstHandle` on, and the number of a dropped entry is not used again.
There is no largest number here: a table of 32-bit numbers behaves the same until it has handed out
all of them.

* `Handles`: the live entries with their numbers, and the next number.
* `Handles.create`, `Handles.get?`, `Handles.update`, `Handles.remove`.
-/

namespace Retrace

/-- The first number handed out. -/
def firstHandle : Nat := 1000

/-- Entries under numbers. -/
structure Handles (α : Type) where
  /-- The number the next entry gets. -/
  next : Nat := firstHandle
  /-- The live entries, by increasing number. -/
  live : List (Nat × α) := []
  /-- The numbers increase. -/
  ordered : (live.map Prod.fst).Pairwise (· < ·) := by simp
  /-- Every live number was handed out. -/
  lt_next : ∀ h ∈ live.map Prod.fst, h < next := by simp

namespace Handles

variable {α : Type}

theorem ext {s t : Handles α} (hn : s.next = t.next) (hl : s.live = t.live) : s = t := by
  cases s; cases t; simp_all

instance [DecidableEq α] : DecidableEq (Handles α) := fun s t =>
  decidable_of_iff (s.next = t.next ∧ s.live = t.live)
    ⟨fun h => ext h.1 h.2, fun h => h ▸ ⟨rfl, rfl⟩⟩

/-- No entries, and no number handed out. -/
def empty : Handles α := {}

instance : Inhabited (Handles α) := ⟨empty⟩

/-- The live numbers, in increasing order. -/
def keys (t : Handles α) : List Nat :=
  t.live.map Prod.fst

/-- The number of live entries. -/
def size (t : Handles α) : Nat :=
  t.live.length

/-- The entry under the number `h`. -/
def get? (t : Handles α) (h : Nat) : Option α :=
  t.live.lookup h

/-- Stores an entry; its number is `t.next`. -/
def create (t : Handles α) (a : α) : Handles α where
  next := t.next + 1
  live := t.live ++ [(t.next, a)]
  ordered := by
    rw [List.map_append, List.pairwise_append]
    refine ⟨t.ordered, by simp, ?_⟩
    intro h hh j hj
    have := t.lt_next h hh
    simp at hj
    omega
  lt_next := by
    intro h hh
    rw [List.map_append, List.mem_append] at hh
    rcases hh with hh | hh
    · exact Nat.lt_succ_of_lt (t.lt_next h hh)
    · simp at hh
      omega

/-- Changes the entry under the number `h`, when there is one. -/
def update (t : Handles α) (h : Nat) (f : α → α) : Handles α where
  next := t.next
  live := t.live.map fun e => (e.1, if e.1 = h then f e.2 else e.2)
  ordered := by
    rw [List.map_map]
    exact t.ordered
  lt_next := by
    rw [List.map_map]
    exact t.lt_next

/-- Drops the entry under the number `h`. Later entries keep their numbers. -/
def remove (t : Handles α) (h : Nat) : Handles α where
  next := t.next
  live := t.live.filter fun e => e.1 ≠ h
  ordered := t.ordered.sublist (List.filter_sublist.map _)
  lt_next := fun j hj => t.lt_next j ((List.filter_sublist.map _).subset hj)

end Handles

end Retrace
