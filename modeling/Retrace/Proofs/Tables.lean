import Mathlib.Data.List.Forall2
import Mathlib.Data.List.Induction
import Retrace.Table

/-!
# Ordered tables

* `Table.get?_eq_some_iff`, `Table.mem_keys_iff`, `Table.mem_values_iff`: what is in a table.
* `Table.get?_foldl_insert`: entries stored one after the other.
* `Table.entries_insert_of_none`, `Table.get?_of_append`: entries that come at the end.
* `Table.map`: the table with other entries under the same names.
* `Table.forall₂_values`, `Table.ext_of_get?`: tables whose entries are related name by name.
-/

namespace Retrace

theorem rel_imp {α β : Type} {R S : α → β → Prop} {a : Option α} {b : Option β}
    (h : Option.Rel R a b) (imp : ∀ x y, a = some x → b = some y → R x y → S x y) :
    Option.Rel S a b := by
  cases h with
  | some hxy => exact .some (imp _ _ rfl rfl hxy)
  | none => exact .none

theorem exists_of_rel {α β : Type} {R : α → β → Prop} {a : Option α} {b : Option β} {y : β}
    (h : Option.Rel R a b) (hb : b = some y) : ∃ x, a = some x ∧ R x y := by
  cases h with
  | some hxy =>
    cases hb
    exact ⟨_, rfl, hxy⟩
  | none => cases hb

theorem eq_none_of_rel {α β : Type} {R : α → β → Prop} {a : Option α} {b : Option β}
    (h : Option.Rel R a b) (hb : b = none) : a = none := by
  cases h with
  | some => cases hb
  | none => rfl

theorem map_eq_of_rel {α β γ : Type} {R : α → β → Prop} {f : α → γ} {g : β → γ} {a : Option α}
    {b : Option β} (h : Option.Rel R a b) (same : ∀ {x y}, R x y → f x = g y) :
    a.map f = b.map g := by
  cases h with
  | some hxy => exact congrArg some (same hxy)
  | none => rfl

theorem putEntry_of_not_mem {α : Type} {k : String} {es : List (String × α)}
    (h : es.lookup k = none) (v : α) : putEntry k v es = es ++ [(k, v)] := by
  induction es with
  | nil => rfl
  | cons e es ih =>
    obtain ⟨k', v'⟩ := e
    rw [List.lookup_cons] at h
    by_cases hk : k' = k
    · simp [hk] at h
    · have hk' : (k == k') = false := by simpa using Ne.symm hk
      rw [hk'] at h
      rw [putEntry, if_neg hk, ih h, List.cons_append]

namespace Table

variable {α β : Type} {t : Table α} {t' : Table β} {k : String} {v : α}

theorem lookup_eq_none {entries : List (String × α)} (h : k ∉ entries.map Prod.fst) :
    entries.lookup k = none := by
  rw [List.lookup_eq_none_iff]
  intro e he
  simpa using fun hk : k = e.1 => h (hk ▸ List.mem_map_of_mem he)

theorem get?_eq_some_iff : t.get? k = some v ↔ (k, v) ∈ t.entries := by
  obtain ⟨entries, nodup⟩ := t
  show entries.lookup k = some v ↔ _
  induction entries with
  | nil => simp
  | cons e entries ih =>
    obtain ⟨k', v'⟩ := e
    rw [List.map_cons, List.nodup_cons] at nodup
    rw [List.lookup_cons, List.mem_cons, Prod.mk.injEq]
    by_cases h : k = k'
    · -- the name does not occur behind its first place
      subst h
      have absent : (k, v) ∉ entries := fun h => nodup.1 (List.mem_map.2 ⟨_, h, rfl⟩)
      simp [absent, eq_comm]
    · simp [beq_false_of_ne h, h, ih nodup.2]

theorem mem_values_iff : v ∈ t.values ↔ ∃ k, t.get? k = some v := by
  simp only [values, List.mem_map, get?_eq_some_iff, Prod.exists, exists_eq_right]

theorem mem_keys_iff : k ∈ t.keys ↔ ∃ v, t.get? k = some v := by
  simp only [keys, List.mem_map, get?_eq_some_iff, Prod.exists, exists_and_right, exists_eq_right]

/-- Of several entries stored under one name the last counts. -/
theorem get?_foldl_insert (entries : List (String × α)) (t : Table α) (k : String) :
    (entries.foldl (fun t e => t.insert e.1 e.2) t).get? k =
      ((entries.filter (·.1 = k)).getLast?.map Prod.snd).or (t.get? k) := by
  induction entries using List.reverseRecOn with
  | nil => rfl
  | append_singleton entries e ih =>
    rw [List.foldl_append, List.foldl_cons, List.foldl_nil, get?_insert, List.filter_append]
    by_cases h : k = e.1
    · simp [h]
    · rw [if_neg h, ih, List.filter_cons_of_neg (by simpa using Ne.symm h), List.filter_nil,
        List.append_nil]

theorem keys_prefix_insert (t : Table α) (k : String) (v : α) : t.keys <+: (t.insert k v).keys := by
  rw [keys_insert]
  split
  · exact List.prefix_refl _
  · exact List.prefix_append ..

theorem entries_insert_of_none (h : t.get? k = none) (v : α) :
    (t.insert k v).entries = t.entries ++ [(k, v)] :=
  putEntry_of_not_mem h v

theorem get?_of_append {u : Table α} (h : t.entries <+: u.entries) (hk : t.get? k = some v) :
    u.get? k = some v := by
  obtain ⟨rest, hrest⟩ := h
  have hk' : t.entries.lookup k = some v := hk
  rw [get?, ← hrest, List.lookup_append, hk', Option.some_or]

theorem eq_empty_of_keys (h : t.keys = []) : t = .empty :=
  ext (List.map_eq_nil_iff.1 h)

/-- The table with each entry replaced by what `f` makes of it. -/
def map (f : α → β) (t : Table α) : Table β where
  entries := t.entries.map fun e => (e.1, f e.2)
  nodup := by
    rw [List.map_map]
    exact t.nodup

theorem keys_map (f : α → β) (t : Table α) : (t.map f).keys = t.keys := List.map_map ..

theorem get?_map (f : α → β) (t : Table α) (k : String) :
    (t.map f).get? k = (t.get? k).map f := by
  show (t.entries.map _).lookup k = (t.entries.lookup k).map f
  induction t.entries with
  | nil => rfl
  | cons e entries ih =>
    rw [List.map_cons, List.lookup_cons, List.lookup_cons, ih]
    split <;> rfl

/-- Tables with the same names in the same order have entries that are related one by one, when the
entries of each name are. -/
theorem forall₂_values {R : α → β → Prop} (keys : t.keys = t'.keys)
    (rel : ∀ k, Option.Rel R (t.get? k) (t'.get? k)) : List.Forall₂ R t.values t'.values := by
  obtain ⟨entries, nodup⟩ := t
  obtain ⟨entries', nodup'⟩ := t'
  simp only [Table.keys, Table.values, Table.get?] at keys rel ⊢
  induction entries generalizing entries' with
  | nil =>
    cases entries' with
    | nil => exact .nil
    | cons => cases keys
  | cons e entries ih =>
    cases entries' with
    | nil => cases keys
    | cons e' entries' =>
      obtain ⟨k, v⟩ := e
      obtain ⟨k', v'⟩ := e'
      rw [List.map_cons, List.map_cons, List.cons.injEq] at keys
      obtain ⟨rfl, keys⟩ := keys
      rw [List.map_cons, List.nodup_cons] at nodup nodup'
      have head := rel k
      simp only [List.lookup_cons, beq_self_eq_true] at head
      cases head with
      | some h =>
        refine .cons h (ih nodup.2 entries' nodup'.2 keys fun j => ?_)
        have hj := rel j
        rw [List.lookup_cons, List.lookup_cons] at hj
        by_cases hjk : j = k
        · -- the name of the head does not occur behind
          rw [hjk, lookup_eq_none nodup.1, lookup_eq_none nodup'.1]
          exact .none
        · simpa only [beq_false_of_ne hjk] using hj

/-- A table is told by its names in their order and the entry of each name. -/
theorem ext_of_get? {u : Table α} (keys : t.keys = u.keys) (get? : ∀ k, t.get? k = u.get? k) :
    t = u := by
  have values : t.values = u.values := by
    rw [← List.forall₂_eq_eq_eq]
    refine forall₂_values keys fun k => ?_
    rw [get? k]
    cases u.get? k with
    | none => exact .none
    | some v => exact .some rfl
  exact ext ((List.zip_of_prod keys values).trans (List.zip_of_prod rfl rfl).symm)

end Table
end Retrace
