import Retrace.Literal
import Retrace.Text.Blank

/-!
# Reading assigned values

Inside an object, strings end at their closing quote, lists where their brackets balance, and tokens
at a comma or brace outside parentheses. A text that begins like an object but does not read as
one, for instance because it was cut off, is kept as a token.

* `takeQuoted`, `takeBare`, `takeBalanced`: the parts without structure.
* `readField`, `readValue`, `resume`: the objects around the place of reading are kept in a list,
  innermost first, so the reader never returns into an outer object.
* `Literal.parse`: reads a whole value.
-/

set_option linter.unusedVariables false

namespace Retrace

open Text (skipBlanks length_skipBlanks_le)

namespace Literal

/-! ## Parts without structure -/

/-- The text of a string and what follows its closing quote. A backslash takes the next character
as it is. -/
def takeQuoted : List Char → Option (List Char × List Char)
  | [] => none
  | '"' :: cs => some ([], cs)
  | '\\' :: c :: cs => (takeQuoted cs).map fun (text, rest) => (c :: text, rest)
  | c :: cs => (takeQuoted cs).map fun (text, rest) => (c :: text, rest)

/-- A token and what follows it, from inside `depth` parentheses: it ends before the first of
`stops` outside parentheses, and has to end somewhere. -/
def takeBare (stops : List Char) : Nat → List Char → Option (List Char × List Char)
  | _, [] => none
  | depth, c :: cs =>
    if c = '(' then (takeBare stops (depth + 1) cs).map fun (text, rest) => (c :: text, rest)
    else if c = ')' then (takeBare stops (depth - 1) cs).map fun (text, rest) => (c :: text, rest)
    else if depth = 0 ∧ c ∈ stops then some ([], c :: cs)
    else (takeBare stops depth cs).map fun (text, rest) => (c :: text, rest)

/-- The text up to where its brackets and braces balance, from inside `depth` of them, and what
follows. Those in strings do not count; `quoted` says whether the text begins inside a string. -/
def takeBalanced : Nat → Bool → List Char → Option (List Char × List Char)
  | _, _, [] => none
  | depth, true, '\\' :: c :: cs =>
    (takeBalanced depth true cs).map fun (text, rest) => ('\\' :: c :: text, rest)
  | depth, true, c :: cs =>
    (takeBalanced depth (c ≠ '"') cs).map fun (text, rest) => (c :: text, rest)
  | depth, false, c :: cs =>
    if c = '"' then (takeBalanced depth true cs).map fun (text, rest) => (c :: text, rest)
    else if c = '[' ∨ c = '{' then
      (takeBalanced (depth + 1) false cs).map fun (text, rest) => (c :: text, rest)
    else if c = ']' ∨ c = '}' then
      match depth with
      | 0 => none
      | 1 => some ([c], cs)
      | depth + 2 => (takeBalanced (depth + 1) false cs).map fun (text, rest) => (c :: text, rest)
    else (takeBalanced depth false cs).map fun (text, rest) => (c :: text, rest)

/-- A bound on what follows a part carries over when the part is changed. -/
theorem length_of_map {α β : Type} {g : α × List Char → β × List Char}
    {o : Option (α × List Char)} {n : Nat} {text : β} {rest : List Char}
    (h : o.map g = some (text, rest)) (hg : ∀ p, (g p).2 = p.2)
    (ho : ∀ t r, o = some (t, r) → r.length ≤ n) : rest.length ≤ n := by
  obtain ⟨⟨t, r⟩, ht, he⟩ := Option.map_eq_some_iff.1 h
  have hr : rest = r := by simpa [he] using hg (t, r)
  exact hr ▸ ho t r ht

theorem length_takeQuoted {cs text rest : List Char} (h : takeQuoted cs = some (text, rest)) :
    rest.length ≤ cs.length := by
  fun_induction takeQuoted cs generalizing text rest with
  | case1 => simp at h
  | case2 cs => simp at h; simp [← h.2]
  | case3 c cs ih | case4 c cs _ _ ih =>
    have := length_of_map h (fun _ => rfl) fun _ _ => ih
    simp only [List.length_cons]
    omega

theorem length_takeBare {stops : List Char} {depth : Nat} {cs text rest : List Char}
    (h : takeBare stops depth cs = some (text, rest)) : rest.length ≤ cs.length := by
  induction cs generalizing depth text rest with
  | nil => simp [takeBare] at h
  | cons c cs ih =>
    rw [takeBare] at h
    have cut : ∀ {d : Nat}, ((takeBare stops d cs).map fun (text, rest) => (c :: text, rest)) =
        some (text, rest) → rest.length ≤ (c :: cs).length := fun h' =>
      Nat.le_succ_of_le (length_of_map h' (fun _ => rfl) fun _ _ => ih)
    split at h
    · exact cut h
    split at h
    · exact cut h
    split at h
    · simp only [Option.some.injEq, Prod.mk.injEq] at h
      exact Nat.le_of_eq (congrArg List.length h.2.symm)
    · exact cut h

theorem length_takeBalanced {depth : Nat} {quoted : Bool} {cs text rest : List Char}
    (h : takeBalanced depth quoted cs = some (text, rest)) : rest.length ≤ cs.length := by
  fun_induction takeBalanced depth quoted cs generalizing text rest with
  | case1 | case6 => simp at h
  | case7 c cs => simp at h; simp [← h.2]
  | case2 depth c cs ih | case3 depth c cs _ ih | case4 depth cs ih | case5 depth c cs _ _ ih
  | case8 c cs _ _ _ depth ih | case9 depth c cs _ _ _ ih =>
    have := length_of_map h (fun _ => rfl) fun _ _ => ih
    simp only [List.length_cons]
    omega

/-- The name of a field and what follows it: a string, or a token that ends before a colon. -/
def takeKey : List Char → Option (List Char × List Char)
  | '"' :: cs => takeQuoted cs
  | cs => (takeBare [':'] 0 cs).map fun (text, rest) => (Text.trimChars text, rest)

/-- A value that is no object and what follows it. -/
def takeLeaf : List Char → Option (Literal × List Char)
  | '"' :: cs => (takeQuoted cs).map fun (text, rest) => (.quoted (String.ofList text), rest)
  | '[' :: cs =>
    (takeBalanced 1 false cs).map fun (text, rest) => (.array (String.ofList ('[' :: text)), rest)
  | cs =>
    (takeBare [',', '}'] 0 cs).map fun (text, rest) =>
      (.bare (String.ofList (Text.trimChars text)), rest)

theorem length_takeKey {cs text rest : List Char} (h : takeKey cs = some (text, rest)) :
    rest.length ≤ cs.length := by
  unfold takeKey at h
  split at h
  · have := length_takeQuoted h
    simp only [List.length_cons]
    omega
  · obtain ⟨⟨t, r⟩, ht, he⟩ := Option.map_eq_some_iff.1 h
    simp at he
    exact he.2 ▸ length_takeBare ht

theorem length_takeLeaf {cs rest : List Char} {v : Literal} (h : takeLeaf cs = some (v, rest)) :
    rest.length ≤ cs.length := by
  unfold takeLeaf at h
  split at h <;> obtain ⟨⟨t, r⟩, ht, he⟩ := Option.map_eq_some_iff.1 h <;> simp at he
  · have := length_takeQuoted ht
    simp only [List.length_cons, ← he.2]
    omega
  · have := length_takeBalanced ht
    simp only [List.length_cons, ← he.2]
    omega
  · exact he.2 ▸ length_takeBare ht

/-! ## Objects -/

/-- An object whose end has not been read yet. -/
structure OpenObject where
  /-- The fields that are complete, in order. -/
  fields : List (String × Literal)
  /-- The name of the field whose value is being read. -/
  key : String

/-- The fields of the object once the value of its last field is known. -/
def OpenObject.complete (o : OpenObject) (v : Literal) : List (String × Literal) :=
  o.fields ++ [(o.key, v)]

mutual

/-- Reads on where an object with the given complete fields may have a further field or end. -/
def readField (outer : List OpenObject) (fields : List (String × Literal)) (cs : List Char) :
    Option (List (String × Literal) × List Char) :=
  match hs : skipBlanks cs with
  | [] => none
  | c :: rest =>
    if c = '}' then closeObject outer fields rest
    else
      match hk : takeKey (c :: rest) with
      | none => none
      | some (key, behindKey) =>
        match hc : skipBlanks behindKey with
        | [] => none
        | colon :: behind =>
          if colon = ':' then readValue outer ⟨fields, String.ofList key⟩ behind else none
termination_by 3 * cs.length
decreasing_by
  · have := length_skipBlanks_le cs
    simp only [hs, List.length_cons] at this
    omega
  · have h₁ := length_skipBlanks_le cs
    have h₂ := length_takeKey hk
    have h₃ := length_skipBlanks_le behindKey
    simp only [hs, hc, List.length_cons] at h₁ h₂ h₃
    omega

/-- Reads on where the value of the innermost object's last field stands. -/
def readValue (outer : List OpenObject) (o : OpenObject) (cs : List Char) :
    Option (List (String × Literal) × List Char) :=
  match hs : skipBlanks cs with
  | [] => none
  | c :: rest =>
    if c = '{' then readField (o :: outer) [] rest
    else
      match hl : takeLeaf (c :: rest) with
      | none => none
      | some (v, behind) => resume outer (o.complete v) behind
termination_by 3 * cs.length + 1
decreasing_by
  · have := length_skipBlanks_le cs
    simp only [hs, List.length_cons] at this
    omega
  · have h₁ := length_skipBlanks_le cs
    have h₂ := length_takeLeaf hl
    simp only [hs, List.length_cons] at h₁ h₂
    omega

/-- Reads on behind the value of a field: a comma leads to the next field, a brace ends the
object. -/
def resume (outer : List OpenObject) (fields : List (String × Literal)) (cs : List Char) :
    Option (List (String × Literal) × List Char) :=
  match hs : skipBlanks cs with
  | [] => none
  | c :: rest =>
    if c = ',' then readField outer fields rest
    else if c = '}' then closeObject outer fields rest
    else none
termination_by 3 * cs.length
decreasing_by all_goals
  have := length_skipBlanks_le cs
  simp only [hs, List.length_cons] at this
  omega

/-- Reads on behind the end of an object: it is the value of a field of the next object around it,
or the answer when there is none. -/
def closeObject (outer : List OpenObject) (fields : List (String × Literal)) (cs : List Char) :
    Option (List (String × Literal) × List Char) :=
  match outer with
  | [] => some (fields, cs)
  | o :: outer => resume outer (o.complete (.object fields)) cs
termination_by 3 * cs.length + 1

end

/-! ## Whole values -/

/-- Reads a whole value. -/
def parse (s : String) : Literal :=
  let cs := Text.trimChars s.toList
  match cs with
  | '{' :: rest =>
    match readField [] [] rest with
    | some (fields, behind) =>
      if (skipBlanks behind).isEmpty then .object fields else .bare (String.ofList cs)
    | none => .bare (String.ofList cs)
  | '[' :: _ => .array (String.ofList cs)
  | '"' :: rest =>
    if rest.getLast? = some '"' then
      match takeQuoted rest with
      | some (text, behind) =>
        if (skipBlanks behind).isEmpty then .quoted (String.ofList text)
        else .quoted (String.ofList rest.dropLast)
      | none => .quoted (String.ofList rest.dropLast)
    else .bare (String.ofList cs)
  | _ => .bare (String.ofList cs)

end Literal

end Retrace
