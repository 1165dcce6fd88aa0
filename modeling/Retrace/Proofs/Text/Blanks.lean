import Mathlib.Data.List.DropRight
import Retrace.Text.Blank

/-!
# Trimmed texts

* `Text.Blank`, `Text.Unpadded`: texts of blanks only, and texts with none at their ends.
* `Text.skipBlanks_append`, `Text.dropEndWhile_append`: what stands at an end is dropped.
* `Text.exists_dropEndWhile`, **`Text.exists_trimChars`**: a text is what is left and what is
  dropped, so trimming tells the text between the blanks.
-/

namespace Retrace.Text

/-- Every character is a blank. -/
def Blank (cs : List Char) : Prop :=
  ∀ c ∈ cs, isBlank c = true

/-- The text neither begins nor ends with a blank. -/
structure Unpadded (cs : List Char) : Prop where
  head : ∀ c ∈ cs.head?, isBlank c = false
  last : ∀ c ∈ cs.getLast?, isBlank c = false

instance (cs : List Char) : Decidable (Blank cs) := List.decidableBAll (isBlank · = true) cs

variable {p : Char → Bool} {w w' cs : List Char} {c : Char}

/-! ## The beginning -/

theorem skipBlanks_cons (hc : isBlank c = false) : skipBlanks (c :: cs) = c :: cs := by
  simp [skipBlanks, hc]

theorem skipBlanks_append (hw : Blank w) (cs : List Char) :
    skipBlanks (w ++ cs) = skipBlanks cs :=
  List.dropWhile_append_of_pos hw

theorem skipBlanks_append_cons (hw : Blank w) (hc : isBlank c = false) (cs : List Char) :
    skipBlanks (w ++ c :: cs) = c :: cs := by
  rw [skipBlanks_append hw, skipBlanks_cons hc]

theorem skipBlanks_of_blank (hw : Blank w) : skipBlanks w = [] :=
  List.dropWhile_eq_nil_iff.2 hw

/-! ## The end -/

theorem dropEndWhile_append (hw : ∀ c ∈ w, p c = true) (cs : List Char) :
    dropEndWhile p (cs ++ w) = dropEndWhile p cs := by
  unfold dropEndWhile
  rw [List.reverse_append, List.dropWhile_append_of_pos fun c hc => hw c (List.mem_reverse.1 hc)]

theorem dropEndWhile_cons (hc : p c = false) (cs : List Char) :
    dropEndWhile p (c :: cs) = c :: dropEndWhile p cs := by
  unfold dropEndWhile
  rw [List.reverse_cons, List.dropWhile_append]
  split
  · next h => simp [List.isEmpty_iff.1 h, hc]
  · simp

theorem dropEndWhile_eq_self_iff :
    dropEndWhile p cs = cs ↔ ∀ c ∈ cs.getLast?, p c = false := by
  refine (List.rdropWhile_eq_self_iff (p := p)).trans ?_
  cases cs using List.reverseRecOn <;> simp

theorem getLast?_dropEndWhile (p : Char → Bool) (cs : List Char) :
    ∀ c ∈ (dropEndWhile p cs).getLast?, p c = false :=
  dropEndWhile_eq_self_iff.1 (List.rdropWhile_idempotent p cs)

theorem exists_dropEndWhile (p : Char → Bool) (cs : List Char) :
    ∃ w, cs = dropEndWhile p cs ++ w ∧ ∀ c ∈ w, p c = true :=
  ⟨cs.rtakeWhile p, List.rdropWhile_append_rtakeWhile.symm, fun _ => List.mem_rtakeWhile_imp⟩

/-! ## Both ends -/

/-- Trimming does not see the blanks that were added around a text. -/
theorem trimChars_append (hw : Blank w) (hw' : Blank w') (cs : List Char) :
    trimChars (w ++ (cs ++ w')) = trimChars cs := by
  unfold trimChars
  rw [skipBlanks_append hw]
  unfold skipBlanks
  rw [List.dropWhile_append]
  split
  · next h => rw [List.isEmpty_iff.1 h, ← skipBlanks, skipBlanks_of_blank hw']
  · rw [dropEndWhile_append hw']

theorem Unpadded.trimChars (h : Unpadded cs) : trimChars cs = cs := by
  have hs : skipBlanks cs = cs := by
    cases cs with
    | nil => rfl
    | cons c cs => exact skipBlanks_cons (h.head c rfl)
  rw [Text.trimChars, hs, dropEndWhile_eq_self_iff]
  exact h.last

theorem Unpadded.enclosed {d : Char} (hc : isBlank c = false) (hd : isBlank d = false)
    (cs : List Char) : Unpadded (c :: (cs ++ [d])) where
  head := by simpa using hc
  last := by simpa [List.getLast?_cons] using hd

theorem unpadded_trimChars (cs : List Char) : Unpadded (trimChars cs) where
  head := by
    intro c hc
    have hhead := List.head?_dropWhile_not isBlank cs
    unfold trimChars skipBlanks at hc
    cases hskip : cs.dropWhile isBlank with
    | nil => simp [hskip, dropEndWhile] at hc
    | cons d ds =>
      have hd : isBlank d = false := by simpa [hskip] using hhead
      rw [hskip, dropEndWhile_cons hd, List.head?_cons] at hc
      obtain rfl := Option.mem_some_iff.1 hc
      exact hd
  last := getLast?_dropEndWhile isBlank (skipBlanks cs)

/-- **A text is its trimmed text with blanks around it.** -/
theorem exists_trimChars (cs : List Char) :
    ∃ w w', Blank w ∧ Blank w' ∧ cs = w ++ (trimChars cs ++ w') := by
  obtain ⟨w', hcut, hw'⟩ := exists_dropEndWhile isBlank (skipBlanks cs)
  refine ⟨cs.takeWhile isBlank, w', fun c hc => List.mem_takeWhile_imp hc, hw', ?_⟩
  calc cs = cs.takeWhile isBlank ++ skipBlanks cs := List.takeWhile_append_dropWhile.symm
    _ = cs.takeWhile isBlank ++ (trimChars cs ++ w') := by rw [trimChars, ← hcut]

end Retrace.Text
