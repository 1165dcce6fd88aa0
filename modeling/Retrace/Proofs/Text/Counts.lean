import Retrace.Text.Blank
import Retrace.Text.Count

/-!
# Counts and their digits

* `Text.readDigits_of_isDigit`: digits are read as the number they write.
* `Text.Numeral`: the numerals of a number.
* **`Text.readCountChars_eq_ok_iff`**: the reader accepts exactly the numerals of counts.
* **`Text.readCount?_toString`**: a count is read back from its digits.
-/

namespace Retrace.Text

theorem le_ofDigitChars (n : Nat) (cs : List Char) : n ≤ Nat.ofDigitChars 10 cs n := by
  induction cs generalizing n with
  | nil => exact Nat.le_refl n
  | cons c cs ih =>
    rw [Nat.ofDigitChars_cons]
    exact Nat.le_trans (by omega) (ih _)

/-- Digits are read as the number they write, as long as that is a count. -/
theorem readDigits_of_isDigit {n : Nat} {cs : List Char} (hdigits : ∀ c ∈ cs, c.isDigit)
    (hcount : Nat.ofDigitChars 10 cs n ≤ maxCount) :
    readDigits n cs = .ok (Nat.ofDigitChars 10 cs n) := by
  induction cs generalizing n with
  | nil => rfl
  | cons c cs ih =>
    obtain ⟨hc, hcs⟩ := List.forall_mem_cons.1 hdigits
    rw [Nat.ofDigitChars_cons] at hcount ⊢
    rw [readDigits, digitValue?, if_pos hc]
    dsimp only
    rw [if_pos (Nat.le_trans (le_ofDigitChars _ cs) hcount), ih hcs hcount]

theorem readCountChars_of_isDigit {cs : List Char} (hne : cs ≠ []) (hdigits : ∀ c ∈ cs, c.isDigit) :
    readCountChars cs = readDigits 0 cs := by
  unfold readCountChars
  split
  · exact absurd rfl hne
  · exact absurd (hdigits '+' (by simp)) (by decide)
  · exact absurd (hdigits '+' (by simp)) (by decide)
  · rfl

theorem isDigit_of_readDigits {n m : Nat} {cs : List Char} (hn : n ≤ maxCount)
    (h : readDigits n cs = .ok m) :
    (∀ c ∈ cs, c.isDigit) ∧ Nat.ofDigitChars 10 cs n = m ∧ m ≤ maxCount := by
  induction cs generalizing n with
  | nil =>
    obtain rfl := Except.ok.inj h
    exact ⟨by simp, rfl, hn⟩
  | cons c cs ih =>
    rw [readDigits, digitValue?] at h
    by_cases hc : c.isDigit
    · rw [if_pos hc] at h
      dsimp only at h
      split at h
      · next hle =>
        obtain ⟨hdigits, hvalue, hm⟩ := ih hle h
        exact ⟨List.forall_mem_cons.2 ⟨hc, hdigits⟩, by rw [Nat.ofDigitChars_cons, hvalue], hm⟩
      · cases h
    · rw [if_neg hc] at h
      cases h

/-- The text is a decimal numeral of `n`: at least one digit, with a plus sign in front or without.
Zeros may stand before the first digit that counts. -/
def Numeral (cs : List Char) (n : Nat) : Prop :=
  ∃ digits, (cs = digits ∨ cs = '+' :: digits) ∧ digits ≠ [] ∧ (∀ c ∈ digits, c.isDigit) ∧
    Nat.ofDigitChars 10 digits 0 = n

namespace Numeral

variable {cs : List Char} {n : Nat}

theorem ne_nil (h : Numeral cs n) : cs ≠ [] := by
  obtain ⟨digits, rfl | rfl, hne, -, -⟩ := h
  · exact hne
  · exact List.cons_ne_nil _ _

theorem isDigit_or_plus (h : Numeral cs n) : ∀ c ∈ cs, c.isDigit ∨ c = '+' := by
  obtain ⟨digits, rfl | rfl, -, hdigits, -⟩ := h
  · exact fun c hc => .inl (hdigits c hc)
  · exact List.forall_mem_cons.2 ⟨.inr rfl, fun c hc => .inl (hdigits c hc)⟩

theorem isBlank_eq_false (h : Numeral cs n) : ∀ c ∈ cs, isBlank c = false := by
  intro c hc
  obtain hdigit | rfl := h.isDigit_or_plus c hc
  · have hrange := Char.isDigit_iff_toNat.1 hdigit
    simp only [Char.reduceToNat] at hrange
    simp only [isBlank, Bool.or_eq_false_iff, Bool.and_eq_false_iff, decide_eq_false_iff_not,
      beq_eq_false_iff_ne]
    omega
  · rfl

end Numeral

theorem readCountChars_eq_ok_of_numeral {cs : List Char} {n : Nat} (h : Numeral cs n)
    (hn : n ≤ maxCount) : readCountChars cs = .ok n := by
  obtain ⟨digits, hcs, hne, hdigits, rfl⟩ := h
  obtain rfl | rfl := hcs
  · rw [readCountChars_of_isDigit hne hdigits, readDigits_of_isDigit hdigits hn]
  · obtain ⟨d, ds, rfl⟩ := List.exists_cons_of_ne_nil hne
    exact readDigits_of_isDigit hdigits hn

/-- **The reader accepts exactly the numerals of counts.** -/
theorem readCountChars_eq_ok_iff {cs : List Char} {n : Nat} :
    readCountChars cs = .ok n ↔ Numeral cs n ∧ n ≤ maxCount := by
  refine ⟨fun h => ?_, fun h => readCountChars_eq_ok_of_numeral h.1 h.2⟩
  unfold readCountChars at h
  split at h
  · cases h
  · cases h
  · next digits hne =>
    obtain ⟨hdigits, hvalue, hn⟩ := isDigit_of_readDigits (Nat.zero_le _) h
    exact ⟨⟨digits, .inr rfl, fun he => hne (by rw [he]), hdigits, hvalue⟩, hn⟩
  · next hne _ _ =>
    obtain ⟨hdigits, hvalue, hn⟩ := isDigit_of_readDigits (Nat.zero_le _) h
    exact ⟨⟨cs, .inl rfl, hne, hdigits, hvalue⟩, hn⟩

theorem numeral_toString (n : Nat) : Numeral (toString n).toList n := by
  refine ⟨Nat.toDigits 10 n, .inl ?_, Nat.toDigits_ne_nil, fun c hc => ?_,
    Nat.ofDigitChars_ten_toDigits⟩
  · rw [Nat.toString_eq_ofList_toDigits, String.toList_ofList]
  · exact Nat.isDigit_of_mem_toDigits (by omega) (by omega) hc

/-- **A count is read back from its digits.** -/
theorem readCount?_toString {n : Nat} (h : n ≤ maxCount) : readCount? (toString n) = some n := by
  rw [readCount?, readCount, readCountChars_eq_ok_of_numeral (numeral_toString n) h]
  rfl

end Retrace.Text
