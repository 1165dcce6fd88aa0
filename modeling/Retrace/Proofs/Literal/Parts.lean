import Retrace.Literal.Reader
import Retrace.Proofs.Text.Blanks

/-!
# Reading the parts of a value back

A string, a token and a list each say where they end: at the closing quote, at the first stop
outside parentheses, where the brackets balance. Each reader, given a part that ends where it should
and any text behind it, takes exactly the part.

* `inQuotes`: how a string is written.
* `Clear`, `openParens`: no stop of a token stands outside parentheses.
* `Balanced`: the brackets of a list balance for the first time at its end.
* **`takeQuoted_escape`**, **`takeBare_append`**, **`takeBalanced_closes`**: what the readers take.
-/

namespace Retrace

namespace Literal

open Text (Blank isBlank)

/-! ## Strings -/

/-- The characters of a string between its quotes. -/
def escape (cs : List Char) : List Char :=
  cs.flatMap fun c => if c = '"' ∨ c = '\\' then ['\\', c] else [c]

/-- A string as it is written. -/
def inQuotes (cs : List Char) : List Char :=
  '"' :: (escape cs ++ ['"'])

theorem takeQuoted_escape (cs rest : List Char) :
    takeQuoted (escape cs ++ '"' :: rest) = some (cs, rest) := by
  induction cs with
  | nil => simp [escape, takeQuoted]
  | cons c cs ih =>
    rw [escape, List.flatMap_cons, List.append_assoc, ← escape]
    split
    · simp [takeQuoted, ih]
    · next h =>
      obtain ⟨hq, he⟩ := not_or.1 h
      simp [takeQuoted, he, ih]

/-! ## Tokens -/

/-- How many parentheses are open behind a character, when `depth` are before it. A parenthesis that
closes none does not count. -/
def parens (depth : Nat) (c : Char) : Nat :=
  if c = '(' then depth + 1 else if c = ')' then depth - 1 else depth

/-- How many parentheses are open behind a text. -/
def openParens (depth : Nat) (cs : List Char) : Nat :=
  cs.foldl parens depth

/-- None of `stops` stands outside parentheses, in a text with `depth` open ones before it. -/
def Clear (stops : List Char) (depth : Nat) (cs : List Char) : Prop :=
  ∀ pre c post, cs = pre ++ c :: post → openParens depth pre = 0 → c ∉ stops

section Tokens

variable {stops : List Char} {depth : Nat} {c : Char} {cs w : List Char}

theorem clear_nil : Clear stops depth [] := by
  intro pre c post he
  simp at he

theorem clear_cons :
    Clear stops depth (c :: cs) ↔ (depth = 0 → c ∉ stops) ∧ Clear stops (parens depth c) cs := by
  refine ⟨fun h => ⟨h [] c cs rfl, fun pre d post he => h (c :: pre) d post (by rw [he]; rfl)⟩, ?_⟩
  rintro ⟨hc, h⟩ pre d post he
  cases pre with
  | nil =>
    obtain ⟨rfl, -⟩ := List.cons.inj he
    exact hc
  | cons e pre =>
    obtain ⟨rfl, ht⟩ := List.cons.inj he
    exact h pre d post ht

instance decidableClear (stops : List Char) :
    (depth : Nat) → (cs : List Char) → Decidable (Clear stops depth cs)
  | _, [] => .isTrue clear_nil
  | depth, c :: cs =>
    have := decidableClear stops (parens depth c) cs
    decidable_of_iff _ clear_cons.symm

theorem takeBare_append (h : Clear stops depth cs) (rest : List Char) :
    takeBare stops depth (cs ++ rest) =
      (takeBare stops (openParens depth cs) rest).map fun (text, rest) => (cs ++ text, rest) := by
  induction cs generalizing depth with
  | nil => cases h : takeBare stops depth rest <;> simp [openParens, h]
  | cons c cs ih =>
    obtain ⟨hc, ht⟩ := clear_cons.1 h
    have hc : ¬ (depth = 0 ∧ c ∈ stops) := not_and.2 hc
    have ih := ih ht
    rw [List.cons_append, takeBare, if_neg hc, openParens, List.foldl_cons, ← openParens]
    unfold parens at ih ⊢
    split_ifs at ih ⊢ <;> rw [ih, Option.map_map] <;> rfl

theorem openParens_blank (hw : Blank w) : openParens depth w = depth := by
  induction w with
  | nil => rfl
  | cons c w ih =>
    obtain ⟨hc, hw⟩ := List.forall_mem_cons.1 hw
    have hp : parens depth c = depth := by
      unfold parens
      rw [if_neg, if_neg] <;> rintro rfl <;> simp [isBlank] at hc
    rw [openParens, List.foldl_cons, hp]
    exact ih hw

theorem clear_blank (hw : Blank w) : Clear [',', '}'] depth w := by
  rintro pre c post rfl - hc
  have hb := hw c (by simp)
  rcases List.mem_pair.1 hc with rfl | rfl <;> simp [isBlank] at hb

/-- A token that ends where it stands in an object: no comma and no brace stands outside
parentheses, and no parenthesis stays open. -/
structure Closed (cs : List Char) : Prop where
  clear : Clear [',', '}'] 0 cs
  ends : openParens 0 cs = 0

theorem takeBare_closed (h : Closed cs) (hw : Blank w) (hc : c ∈ [',', '}'])
    (rest : List Char) :
    takeBare [',', '}'] 0 (cs ++ (w ++ c :: rest)) = some (cs ++ w, c :: rest) := by
  have stop : takeBare [',', '}'] 0 (c :: rest) = some ([], c :: rest) := by
    rcases List.mem_pair.1 hc with rfl | rfl <;> simp [takeBare]
  rw [takeBare_append h.clear, h.ends, takeBare_append (clear_blank hw), openParens_blank hw, stop]
  simp

end Tokens

/-! ## Lists -/

/-- Where a scan for the end of a list stands. -/
structure Scan where
  /-- How many brackets and braces are open. -/
  depth : Nat
  /-- Whether the scan is inside a string. -/
  quoted : Bool
  /-- Whether the scan is behind a backslash that takes the next character as it is. -/
  escaped : Bool

/-- Brackets and braces count outside strings only, and a quote behind a backslash ends no
string. -/
def Scan.next (s : Scan) (c : Char) : Scan :=
  if s.escaped then { s with escaped := false }
  else if s.quoted then
    if c = '\\' then { s with escaped := true } else { s with quoted := c ≠ '"' }
  else if c = '"' then { s with quoted := true }
  else if c = '[' ∨ c = '{' then { s with depth := s.depth + 1 }
  else if c = ']' ∨ c = '}' then { s with depth := s.depth - 1 }
  else s

/-- Where the scan stands behind a text. -/
def Scan.behind (s : Scan) (cs : List Char) : Scan :=
  cs.foldl Scan.next s

/-- What is open before the text is closed for the first time at its end. -/
structure Scan.Closes (s : Scan) (cs : List Char) : Prop where
  ends : (s.behind cs).depth = 0
  first : ∀ pre c post, cs = pre ++ c :: post → (s.behind pre).depth ≠ 0

theorem Scan.closes_nil {s : Scan} : s.Closes [] ↔ s.depth = 0 :=
  ⟨fun h => h.ends, fun h => ⟨h, by simp⟩⟩

theorem Scan.closes_cons {s : Scan} {c : Char} {cs : List Char} :
    s.Closes (c :: cs) ↔ s.depth ≠ 0 ∧ (s.next c).Closes cs := by
  refine ⟨fun h => ⟨h.first [] c cs rfl, h.ends, fun pre d post he => ?_⟩, ?_⟩
  · exact h.first (c :: pre) d post (by rw [he]; rfl)
  · rintro ⟨hd, ends, first⟩
    refine ⟨ends, fun pre d post he => ?_⟩
    cases pre with
    | nil => exact hd
    | cons e pre =>
      obtain ⟨rfl, ht⟩ := List.cons.inj he
      exact first pre d post ht

instance Scan.decidableCloses : (s : Scan) → (cs : List Char) → Decidable (s.Closes cs)
  | _, [] => decidable_of_iff _ closes_nil.symm
  | s, c :: cs =>
    have := decidableCloses (s.next c) cs
    decidable_of_iff _ closes_cons.symm

/-- Apart from a backslash in a string, the reader goes one character ahead with the scan. -/
theorem takeBalanced_cons {depth : Nat} {quoted : Bool} {c : Char} {s : Scan} (hd : depth ≠ 0)
    (hc : ¬ (quoted = true ∧ c = '\\')) (hs : Scan.next ⟨depth, quoted, false⟩ c = s)
    (cs : List Char) :
    takeBalanced depth quoted (c :: cs) =
      if s.depth = 0 then some ([c], cs)
      else (takeBalanced s.depth s.quoted cs).map fun (text, rest) => (c :: text, rest) := by
  obtain ⟨depth, rfl⟩ := Nat.exists_eq_succ_of_ne_zero hd
  subst hs
  cases quoted with
  | true =>
    have hc : c ≠ '\\' := fun h => hc ⟨rfl, h⟩
    rw [takeBalanced.eq_3 _ _ _ fun _ _ h => absurd h hc]
    simp [Scan.next, hc]
  | false =>
    rw [takeBalanced.eq_def]
    unfold Scan.next
    cases depth <;> split_ifs <;> simp_all

theorem Scan.next_escaped (depth : Nat) {quoted : Bool} {c : Char}
    (hc : ¬ (quoted = true ∧ c = '\\')) :
    (Scan.next ⟨depth, quoted, false⟩ c).escaped = false := by
  unfold Scan.next
  split_ifs <;> simp_all

theorem takeBalanced_closes {depth : Nat} {quoted : Bool} {cs : List Char} (hd : depth ≠ 0)
    (h : Scan.Closes ⟨depth, quoted, false⟩ cs) (rest : List Char) :
    takeBalanced depth quoted (cs ++ rest) = some (cs, rest) := by
  induction hn : cs.length using Nat.strong_induction_on generalizing cs depth quoted with
  | _ n ih =>
    subst hn
    cases cs with
    | nil => exact absurd h.ends hd
    | cons c cs =>
      by_cases hc : quoted = true ∧ c = '\\'
      · -- The character behind the backslash is taken along, so the scan goes two ahead.
        obtain ⟨rfl, rfl⟩ := hc
        cases cs with
        | nil => exact absurd h.ends hd
        | cons c cs =>
          have ht : Scan.Closes ⟨depth, true, false⟩ cs :=
            (Scan.closes_cons.1 (Scan.closes_cons.1 h).2).2
          have ih := ih cs.length (by simp only [List.length_cons]; omega) hd ht rfl
          simp [takeBalanced, ih]
      · have he := Scan.next_escaped depth hc
        have ht := (Scan.closes_cons.1 h).2
        rcases hs : Scan.next ⟨depth, quoted, false⟩ c with ⟨depth', quoted', escaped⟩
        rw [hs] at he ht
        subst he
        rw [List.cons_append, takeBalanced_cons hd hc hs]
        split
        · next h0 =>
          cases cs with
          | nil => rfl
          | cons c' cs => exact absurd h0 (ht.first [] c' cs rfl)
        · next h0 => rw [ih cs.length (by simp) h0 ht rfl]; rfl

/-- The brackets of a list: the first one opens it, and they balance at its end and not before. -/
structure Balanced (cs : List Char) : Prop where
  opens : cs.head? = some '['
  ends : (Scan.behind ⟨0, false, false⟩ cs).depth = 0
  first : ∀ pre post, cs = pre ++ post → pre ≠ [] → post ≠ [] →
    (Scan.behind ⟨0, false, false⟩ pre).depth ≠ 0

theorem balanced_cons {cs : List Char} :
    Balanced ('[' :: cs) ↔ Scan.Closes ⟨1, false, false⟩ cs := by
  refine ⟨fun h => ⟨h.ends, fun pre c post he => ?_⟩, fun h => ⟨rfl, h.ends, ?_⟩⟩
  · exact h.first ('[' :: pre) (c :: post) (by rw [he]; rfl) (by simp) (by simp)
  · intro pre post he hpre hpost
    obtain ⟨c, post, rfl⟩ := List.exists_cons_of_ne_nil hpost
    obtain ⟨e, pre, rfl⟩ := List.exists_cons_of_ne_nil hpre
    obtain ⟨rfl, ht⟩ := List.cons.inj he
    exact h.first pre c post ht

theorem takeLeaf_array {cs : List Char} (h : Balanced cs) (rest : List Char) :
    takeLeaf (cs ++ rest) = some (.array (String.ofList cs), rest) := by
  obtain ⟨cs, rfl⟩ : ∃ t, cs = '[' :: t := ⟨cs.tail, (List.eq_cons_of_mem_head? h.opens)⟩
  have hc := balanced_cons.1 h
  simp [takeLeaf, takeBalanced_closes Nat.one_ne_zero hc rest]

theorem takeLeaf_quoted (cs rest : List Char) :
    takeLeaf (inQuotes cs ++ rest) = some (.quoted (String.ofList cs), rest) := by
  have h : inQuotes cs ++ rest = '"' :: (escape cs ++ '"' :: rest) := by simp [inQuotes]
  rw [h, takeLeaf, takeQuoted_escape]
  rfl

/-- A token: a value is taken for one that looks like neither a string nor an object nor a
list. -/
structure Token (cs : List Char) : Prop where
  unpadded : Text.Unpadded cs
  plain : ∀ c ∈ cs.head?, c ∉ ['"', '{', '[']

theorem takeLeaf_bare {cs w : List Char} {c : Char} (ht : Token cs) (h : Closed cs) (hw : Blank w)
    (hc : c ∈ [',', '}']) (rest : List Char) :
    takeLeaf (cs ++ (w ++ c :: rest)) = some (.bare (String.ofList cs), c :: rest) := by
  have trim : Text.trimChars (cs ++ w) = cs :=
    (Text.trimChars_append (w := []) (by simp [Blank]) hw cs).trans ht.unpadded.trimChars
  have plain : ∀ d tail, cs ++ (w ++ c :: rest) = d :: tail → d ≠ '"' ∧ d ≠ '[' := by
    intro d tail he
    cases cs with
    | cons e cs =>
      obtain ⟨rfl, -⟩ := List.cons.inj he
      have := ht.plain e rfl
      simp_all
    | nil =>
      cases w with
      | cons e w =>
        obtain ⟨rfl, -⟩ := List.cons.inj he
        have hb := hw e (by simp)
        constructor <;> rintro rfl <;> simp [isBlank] at hb
      | nil =>
        obtain ⟨rfl, -⟩ := List.cons.inj he
        rcases List.mem_pair.1 hc with rfl | rfl <;> decide
  rw [takeLeaf, takeBare_closed h hw hc]
  · simp [trim]
  · exact fun _ he => (plain _ _ he).1 rfl
  · exact fun _ he => (plain _ _ he).2 rfl

end Literal

end Retrace
