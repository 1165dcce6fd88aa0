import Retrace.Json

/-!
# Tokens of JSON texts

* `Json.Token`: brackets, braces, separators, and the values without parts.
* `Json.takeString`, `Json.takeNumber`: the texts of strings and numbers, with what follows them.
* `Json.numberName`, `Json.ofNumberText?`: numbers that are written as objects.
* `Json.tokens`: a text as tokens. The reading is strict: control characters do not stand in
  strings, surrogates come in pairs, numbers have no superfluous zeros.
-/

set_option linter.unusedVariables false

namespace Retrace.Json

/-- A token. -/
inductive Token
  | openArray
  | closeArray
  | openObject
  | closeObject
  | comma
  | colon
  /-- A value without parts. -/
  | scalar (v : Json)

/-! ## Strings -/

/-- The value of a hexadecimal digit. -/
def hexValue? (c : Char) : Option Nat :=
  if c.isDigit then some (c.toNat - '0'.toNat)
  else if 'a' ≤ c ∧ c ≤ 'f' then some (c.toNat - 'a'.toNat + 10)
  else if 'A' ≤ c ∧ c ≤ 'F' then some (c.toNat - 'A'.toNat + 10)
  else none

/-- The number that four hexadecimal digits write. -/
def hexUnit? (a b c d : Char) : Option Nat :=
  match hexValue? a, hexValue? b, hexValue? c, hexValue? d with
  | some a, some b, some c, some d => some (((a * 16 + b) * 16 + c) * 16 + d)
  | _, _, _, _ => none

/-- The character of one escaped unit that is no surrogate. -/
def unitChar? (n : Nat) : Option Char :=
  if 0xD800 ≤ n ∧ n ≤ 0xDFFF then none else some (Char.ofNat n)

/-- The character of two escaped units: a leading surrogate and a trailing one. -/
def pairChar? (lead trail : Nat) : Option Char :=
  if 0xD800 ≤ lead ∧ lead ≤ 0xDBFF ∧ 0xDC00 ≤ trail ∧ trail ≤ 0xDFFF then
    some (Char.ofNat (0x10000 + (lead - 0xD800) * 0x400 + (trail - 0xDC00)))
  else none

/-- The character that a letter behind a backslash stands for. -/
def escape? : Char → Option Char
  | '"' => some '"'
  | '\\' => some '\\'
  | '/' => some '/'
  | 'b' => some '\x08'
  | 'f' => some '\x0c'
  | 'n' => some '\n'
  | 'r' => some '\r'
  | 't' => some '\t'
  | _ => none

/-- The first character of a string, behind its opening quote, and what follows it; an escape
counts as one character. -/
def takeChar : List Char → Option (Char × List Char)
  | [] => none
  | '\\' :: 'u' :: a :: b :: c :: d :: rest =>
    match hexUnit? a b c d with
    | none => none
    | some lead =>
      match unitChar? lead, rest with
      | some ch, rest => some (ch, rest)
      | none, '\\' :: 'u' :: a :: b :: c :: d :: rest =>
        ((hexUnit? a b c d).bind (pairChar? lead)).map fun ch => (ch, rest)
      | none, _ => none
  | '\\' :: c :: rest => (escape? c).map fun ch => (ch, rest)
  | '\\' :: [] => none
  | c :: rest => if c.toNat < 0x20 then none else some (c, rest)

theorem length_takeChar {cs rest : List Char} {ch : Char} (h : takeChar cs = some (ch, rest)) :
    rest.length < cs.length := by
  unfold takeChar at h
  split at h
  · simp at h
  · split at h
    · simp at h
    · split at h
      · simp only [Option.some.injEq, Prod.mk.injEq] at h
        simp only [← h.2, List.length_cons]
        omega
      · obtain ⟨_, _, he⟩ := Option.map_eq_some_iff.1 h
        simp only [Prod.mk.injEq] at he
        simp only [← he.2, List.length_cons]
        omega
      · simp at h
  · obtain ⟨_, _, he⟩ := Option.map_eq_some_iff.1 h
    simp only [Prod.mk.injEq] at he
    simp only [← he.2, List.length_cons]
    omega
  · simp at h
  · split at h
    · simp at h
    · simp only [Option.some.injEq, Prod.mk.injEq] at h
      simp only [← h.2, List.length_cons]
      omega

/-- The text of a string, behind its opening quote, and what follows its closing quote. -/
def takeString (cs : List Char) : Option (List Char × List Char) :=
  match cs with
  | '"' :: rest => some ([], rest)
  | cs =>
    match h : takeChar cs with
    | none => none
    | some (ch, rest) => (takeString rest).map fun (text, rest) => (ch :: text, rest)
termination_by cs.length
decreasing_by exact length_takeChar h

theorem length_takeString {cs text rest : List Char} (h : takeString cs = some (text, rest)) :
    rest.length ≤ cs.length := by
  fun_induction takeString cs generalizing text rest with
  | case1 cs =>
    simp only [Option.some.injEq, Prod.mk.injEq] at h
    simp [← h.2]
  | case2 => simp at h
  | case3 cs _ ch behind hch ih =>
    obtain ⟨⟨t, r⟩, ht, he⟩ := Option.map_eq_some_iff.1 h
    have h₁ := ih ht
    have h₂ := length_takeChar hch
    simp only [Prod.mk.injEq] at he
    simp only [← he.2]
    omega

/-! ## Numbers -/

/-- The digits in front of a text, at least one, and what follows them. -/
def takeDigits (cs : List Char) : Option (List Char × List Char) :=
  if (cs.takeWhile Char.isDigit).isEmpty then none
  else some (cs.takeWhile Char.isDigit, cs.dropWhile Char.isDigit)

/-- The whole part of a number: a zero alone, or digits that begin with another. -/
def takeWhole : List Char → Option (List Char × List Char)
  | '0' :: cs => some (['0'], cs)
  | cs => takeDigits cs

/-- The fraction of a number, with its point; it may be missing. -/
def takeFraction : List Char → Option (List Char × List Char)
  | '.' :: cs => (takeDigits cs).map fun (digits, rest) => ('.' :: digits, rest)
  | cs => some ([], cs)

/-- The exponent of a number, written with a small letter and a sign; it may be missing. -/
def takeExponent : List Char → Option (List Char × List Char)
  | c :: cs =>
    if c = 'e' ∨ c = 'E' then
      match cs with
      | '-' :: cs => (takeDigits cs).map fun (digits, rest) => ('e' :: '-' :: digits, rest)
      | '+' :: cs => (takeDigits cs).map fun (digits, rest) => ('e' :: '+' :: digits, rest)
      | cs => (takeDigits cs).map fun (digits, rest) => ('e' :: '+' :: digits, rest)
    else some ([], c :: cs)
  | [] => some ([], [])

/-- A number without its sign. -/
def takeUnsigned (cs : List Char) : Option (List Char × List Char) :=
  (takeWhole cs).bind fun (whole, cs) =>
    (takeFraction cs).bind fun (fraction, cs) =>
      (takeExponent cs).map fun (exponent, cs) => (whole ++ fraction ++ exponent, cs)

/-- The text of a number and what follows it. The text stays as it is written, apart from the
spelling of the exponent. -/
def takeNumber : List Char → Option (List Char × List Char)
  | '-' :: cs => (takeUnsigned cs).map fun (digits, rest) => ('-' :: digits, rest)
  | cs => takeUnsigned cs

/-- The number that a whole text writes. -/
def ofNumberText? (s : String) : Option Json :=
  match takeNumber s.toList with
  | some (text, []) => some (.number (String.ofList text))
  | _ => none

/-- A reserved name: an object that begins with a member of this name stands for a number. It has no
other member, and the value of the member is the text of the number. -/
def numberName : String := "$serde_json::private::Number"

theorem length_takeDigits {cs text rest : List Char} (h : takeDigits cs = some (text, rest)) :
    rest.length < cs.length := by
  unfold takeDigits at h
  split at h
  · simp at h
  · rename_i hne
    simp only [Option.some.injEq, Prod.mk.injEq] at h
    have hlen := congrArg List.length
      (List.takeWhile_append_dropWhile (p := Char.isDigit) (l := cs))
    rw [List.length_append, h.2] at hlen
    have : 0 < (cs.takeWhile Char.isDigit).length := by
      rw [List.length_pos_iff]
      simpa using hne
    omega

/-- A bound on what follows a part carries over when the part is changed. -/
theorem length_of_map {α β : Type} {g : α × List Char → β × List Char}
    {o : Option (α × List Char)} {n : Nat} {text : β} {rest : List Char}
    (h : o.map g = some (text, rest)) (hg : ∀ p, (g p).2 = p.2)
    (ho : ∀ t r, o = some (t, r) → r.length < n) : rest.length < n := by
  obtain ⟨⟨t, r⟩, ht, he⟩ := Option.map_eq_some_iff.1 h
  have hr : rest = r := by simpa [he] using hg (t, r)
  exact hr ▸ ho t r ht

theorem length_takeWhole {cs text rest : List Char} (h : takeWhole cs = some (text, rest)) :
    rest.length < cs.length := by
  unfold takeWhole at h
  split at h
  · simp only [Option.some.injEq, Prod.mk.injEq] at h
    simp [← h.2]
  · exact length_takeDigits h

theorem length_takeFraction {cs text rest : List Char} (h : takeFraction cs = some (text, rest)) :
    rest.length ≤ cs.length := by
  unfold takeFraction at h
  split at h
  · refine Nat.le_of_lt_succ (length_of_map h (fun _ => rfl) fun t r ht => ?_)
    have := length_takeDigits ht
    simp only [List.length_cons]
    omega
  · simp only [Option.some.injEq, Prod.mk.injEq] at h
    simp [← h.2]

theorem length_takeExponent {cs text rest : List Char} (h : takeExponent cs = some (text, rest)) :
    rest.length ≤ cs.length := by
  unfold takeExponent at h
  split at h
  · split at h
    · split at h <;> refine Nat.le_of_lt_succ (length_of_map h (fun _ => rfl) fun t r ht => ?_) <;>
        have := length_takeDigits ht <;> simp only [List.length_cons] <;> omega
    · simp only [Option.some.injEq, Prod.mk.injEq] at h
      simp [← h.2]
  · simp only [Option.some.injEq, Prod.mk.injEq] at h
    simp [← h.2]

theorem length_takeUnsigned {cs text rest : List Char} (h : takeUnsigned cs = some (text, rest)) :
    rest.length < cs.length := by
  obtain ⟨⟨whole, cs₁⟩, hw, h⟩ := Option.bind_eq_some_iff.1 h
  obtain ⟨⟨fraction, cs₂⟩, hf, h⟩ := Option.bind_eq_some_iff.1 h
  refine length_of_map h (fun _ => rfl) fun exponent r he => ?_
  have h₁ := length_takeWhole hw
  have h₂ := length_takeFraction hf
  have h₃ := length_takeExponent he
  omega

theorem length_takeNumber {cs text rest : List Char} (h : takeNumber cs = some (text, rest)) :
    rest.length < cs.length := by
  unfold takeNumber at h
  split at h
  · refine length_of_map h (fun _ => rfl) fun t r ht => ?_
    exact Nat.lt_succ_of_lt (length_takeUnsigned ht)
  · exact length_takeUnsigned h

/-! ## Tokens -/

/-- The blanks of JSON. -/
def isSpace (c : Char) : Bool :=
  c = ' ' || c = '\n' || c = '\t' || c = '\r'

/-- The tokens of one character. -/
def mark? : Char → Option Token
  | '[' => some .openArray
  | ']' => some .closeArray
  | '\x7b' => some .openObject
  | '\x7d' => some .closeObject
  | ',' => some .comma
  | ':' => some .colon
  | _ => none

/-- The first token of a text that does not begin with a blank, and what follows it. -/
def takeToken : List Char → Option (Token × List Char)
  | 'n' :: 'u' :: 'l' :: 'l' :: rest => some (.scalar .null, rest)
  | 't' :: 'r' :: 'u' :: 'e' :: rest => some (.scalar (.bool true), rest)
  | 'f' :: 'a' :: 'l' :: 's' :: 'e' :: rest => some (.scalar (.bool false), rest)
  | '"' :: cs =>
    (takeString cs).map fun (text, rest) => (.scalar (.string (String.ofList text)), rest)
  | c :: cs =>
    match mark? c with
    | some token => some (token, cs)
    | none =>
      (takeNumber (c :: cs)).map fun (text, rest) =>
        (.scalar (.number (String.ofList text)), rest)
  | [] => none

theorem length_takeToken {cs rest : List Char} {token : Token}
    (h : takeToken cs = some (token, rest)) : rest.length < cs.length := by
  unfold takeToken at h
  split at h
  iterate 3
    · simp only [Option.some.injEq, Prod.mk.injEq] at h
      simp only [← h.2, List.length_cons]
      omega
  · refine length_of_map h (fun _ => rfl) fun t r ht => ?_
    exact Nat.lt_succ_of_le (length_takeString ht)
  · split at h
    · simp only [Option.some.injEq, Prod.mk.injEq] at h
      simp [← h.2]
    · exact length_of_map h (fun _ => rfl) fun _ _ => length_takeNumber
  · simp at h

/-- The tokens of a text. -/
def tokens (cs : List Char) : Option (List Token) :=
  match cs with
  | [] => some []
  | c :: cs =>
    if isSpace c then tokens cs
    else
      match h : takeToken (c :: cs) with
      | none => none
      | some (token, rest) => (tokens rest).map (token :: ·)
termination_by cs.length
decreasing_by
  · simp
  · exact length_takeToken h

end Retrace.Json
