import Mathlib.Data.List.TakeWhile
import Retrace.Json.Canonical
import Retrace.Snapshot.Encode

/-!
# Spellings that are kept

A free-form value is kept as it is when its numbers are spelled as they are read.

* `Json.Kept`: the values that are kept.
* **`Json.canonical?_eq_some_iff`**: they are those that reading does not change.
* `Json.kept_ofNat`: whole numbers are kept.
-/

namespace Retrace.Json

/-- A value whose numbers are spelled as they are read. An object has a first member of another name
than `numberName`, or no members. -/
inductive Kept : Json → Prop
  | null : Kept .null
  | bool (b : Bool) : Kept (.bool b)
  | number {text : String} (spelled : canonicalNumber text = text) : Kept (.number text)
  | string (text : String) : Kept (.string text)
  | array {items : List Json} (items_kept : ∀ v ∈ items, Kept v) : Kept (.array items)
  | object {members : List (String × Json)} (first : members.head?.any (·.1 = numberName) = false)
      (members_kept : ∀ m ∈ members, Kept m.2) : Kept (.object members)

theorem kept_array_iff {items : List Json} : Kept (.array items) ↔ ∀ v ∈ items, v.Kept :=
  ⟨fun | .array h => h, .array⟩

theorem kept_object_iff {members : List (String × Json)} : Kept (.object members) ↔
    members.head?.any (·.1 = numberName) = false ∧ ∀ m ∈ members, m.2.Kept :=
  ⟨fun | .object first h => ⟨first, h⟩, fun h => .object h.1 h.2⟩

mutual

/-- **Reading does not change the values that are kept**, and no others. -/
theorem canonical?_eq_some_iff : (v : Json) → (v.canonical? = some v ↔ v.Kept)
  | .null => iff_of_true rfl .null
  | .bool b => iff_of_true rfl (.bool b)
  | .string text => iff_of_true rfl (.string text)
  | .number text => by
    rw [canonical?, Option.some_inj, number.injEq]
    exact ⟨.number, fun | .number h => h⟩
  | .array items => by
    rw [canonical?, kept_array_iff, ← canonicalItems?_eq_some_iff items]
    simp
  | .object members => by
    rw [canonical?, kept_object_iff, ← canonicalMembers?_eq_some_iff members]
    cases h : members.head?.any (·.1 = numberName) <;> simp

theorem canonicalItems?_eq_some_iff :
    (items : List Json) → (canonicalItems? items = some items ↔ ∀ v ∈ items, v.Kept)
  | [] => by simp [canonicalItems?]
  | v :: items => by
    rw [List.forall_mem_cons, ← canonical?_eq_some_iff v, ← canonicalItems?_eq_some_iff items,
      canonicalItems?]
    cases v.canonical? <;> cases canonicalItems? items <;> simp

theorem canonicalMembers?_eq_some_iff : (members : List (String × Json)) →
    (canonicalMembers? members = some members ↔ ∀ m ∈ members, m.2.Kept)
  | [] => by simp [canonicalMembers?]
  | (name, v) :: members => by
    rw [List.forall_mem_cons, ← canonical?_eq_some_iff v, ← canonicalMembers?_eq_some_iff members,
      canonicalMembers?]
    cases v.canonical? <;> cases canonicalMembers? members <;> simp

end

theorem canonicalDigits_of_isDigit {limit : Nat} {digits : List Char}
    (hdigits : ∀ c ∈ digits, c.isDigit) (hlimit : Nat.ofDigitChars 10 digits 0 < limit) :
    canonicalDigits limit digits = digits := by
  have hwhole : digits.takeWhile Char.isDigit = digits := List.takeWhile_eq_self_iff.2 hdigits
  have hrest : digits.dropWhile Char.isDigit = [] := List.dropWhile_eq_nil_iff.2 hdigits
  have hnumber : (Decimal.ofDigits digits []).digits = Nat.ofDigitChars 10 digits 0 := by
    rw [Decimal.ofDigits, List.append_nil]
    rfl
  rw [canonicalDigits, hwhole, hrest]
  dsimp only
  rw [hnumber, if_pos hlimit]

theorem kept_ofNat {n : Nat} (h : n < 0x100000000000000000000000000000000) : (ofNat n).Kept := by
  have hdigits : ∀ c ∈ Nat.toDigits 10 n, c.isDigit := fun c hc =>
    Nat.isDigit_of_mem_toDigits (by omega) (by omega) hc
  refine .number ?_
  rw [Nat.toString_eq_ofList_toDigits]
  unfold canonicalNumber
  rw [String.toList_ofList]
  split
  · next hminus => exact absurd (hdigits '-' (by simp [hminus])) (by decide)
  · next hminus => exact absurd (hdigits '-' (by simp [hminus])) (by decide)
  · rw [canonicalDigits_of_isDigit hdigits (by rwa [Nat.ofDigitChars_ten_toDigits])]

end Retrace.Json
