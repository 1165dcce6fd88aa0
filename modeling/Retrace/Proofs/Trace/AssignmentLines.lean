import Retrace.Proofs.Text.Cuts
import Retrace.Trace.Event

/-!
# Lines of assignments

The value of an assignment may hold the very bars that stand between the fields of its line. Where
the value ends is told by the last field alone: one that begins like an address is taken for the
key of an object. With a key in the line this is right whatever the value holds. Without one the
last part of the value is the last field, and is mistaken for a key when it begins so.

* `Assignment.line`, `Assignment.Fits`: the line of an assignment, and the texts that fit into one.
* `Assignment.lineFields_line`: the fields of the line.
* `Assignment.ofFields?_concat`: how fields are read by the last one.
* **`Assignment.ofFields?_line_iff`**: which assignments are read back from their lines.
-/

namespace Retrace

theorem lineFields_append (s t : String) :
    lineFields (s ++ "|" ++ t) = lineFields s ++ lineFields t :=
  Text.splitOn_append '|' s t

theorem lineFields_of_not_mem {s : String} (h : '|' ∉ s.toList) : lineFields s = [s] :=
  Text.splitOn_of_not_mem h

theorem lineFields_ne_nil (s : String) : lineFields s ≠ [] :=
  Text.splitOn_ne_nil '|' s

theorem joinWith_lineFields (s : String) : Text.joinWith '|' (lineFields s) = s :=
  Text.joinWith_splitOn '|' s

namespace Assignment

/-- The line of an assignment that is made at the given time, in the given line of the code. -/
def line (a : Assignment) (time number : String) : String :=
  time ++ "|" ++ "VARIABLE_ASSIGNMENT" ++ "|" ++ ("[" ++ number ++ "]") ++ "|" ++ a.name ++ "|" ++
    a.value ++ a.reference.elim "" ("|" ++ ·)

/-- All texts of the line but the value are single fields, and the key is an address. -/
structure Fits (a : Assignment) (time number : String) : Prop where
  time : '|' ∉ time.toList
  number : '|' ∉ number.toList
  name : '|' ∉ a.name.toList
  reference : ∀ key, a.reference = some key → isAddress key = true ∧ '|' ∉ key.toList

/-- What stands behind the last bar of the value begins like an address. -/
def EndsLikeKey (value : String) : Prop :=
  ∃ before last, value = before ++ "|" ++ last ∧ '|' ∉ last.toList ∧ isAddress last = true

variable {a : Assignment} {time number : String}

theorem lineFields_line (h : a.Fits time number) :
    lineFields (a.line time number) =
      time :: "VARIABLE_ASSIGNMENT" :: ("[" ++ number ++ "]") :: a.name ::
        (lineFields a.value ++ a.reference.toList) := by
  have hnumber : '|' ∉ ("[" ++ number ++ "]").toList := by simpa using h.number
  have hkind : '|' ∉ "VARIABLE_ASSIGNMENT".toList := by decide
  have head : lineFields (time ++ "|" ++ "VARIABLE_ASSIGNMENT" ++ "|" ++ ("[" ++ number ++ "]") ++
      "|" ++ a.name ++ "|" ++ a.value) =
        time :: "VARIABLE_ASSIGNMENT" :: ("[" ++ number ++ "]") :: a.name :: lineFields a.value := by
    simp only [lineFields_append, lineFields_of_not_mem h.time, lineFields_of_not_mem hkind,
      lineFields_of_not_mem hnumber, lineFields_of_not_mem h.name, List.cons_append,
      List.nil_append]
  unfold line
  cases hr : a.reference with
  | none => simpa using head
  | some key =>
    show lineFields (_ ++ ("|" ++ key)) = _
    rw [← String.append_assoc, lineFields_append, head,
      lineFields_of_not_mem (h.reference key hr).2]
    rfl

/-! ## Reading -/

/-- **The last field decides**: one that begins like an address is the key, any other belongs to
the value. -/
theorem ofFields?_concat (t k n name : String) {fields : List String} (hfields : fields ≠ [])
    (last : String) : ofFields? (t :: k :: n :: name :: (fields ++ [last])) =
      some (if isAddress last then ⟨name, Text.joinWith '|' fields, some last⟩
        else ⟨name, Text.joinWith '|' (fields ++ [last]), none⟩) := by
  cases fields with
  | nil => exact absurd rfl hfields
  | cons first rest =>
    simp only [List.cons_append, ofFields?, List.getLast?_concat, List.dropLast_concat]
    split <;> rfl

theorem ofFields?_line_of_key (h : a.Fits time number) {key : String}
    (hr : a.reference = some key) : ofFields? (lineFields (a.line time number)) = some a := by
  rw [lineFields_line h, hr, Option.toList_some, ofFields?_concat _ _ _ _ (lineFields_ne_nil _),
    if_pos (h.reference key hr).1, joinWith_lineFields]
  cases a
  cases hr
  rfl

/-- Without a key in the line, a value with bars is cut where its last part begins like one. -/
theorem ofFields?_line_of_bar (h : a.Fits time number) (hr : a.reference = none)
    {before last : String} (hv : a.value = before ++ "|" ++ last) (hlast : '|' ∉ last.toList) :
    ofFields? (lineFields (a.line time number)) =
      some (if isAddress last then ⟨a.name, before, some last⟩ else a) := by
  have hparts : lineFields a.value = lineFields before ++ [last] := by
    rw [hv, lineFields_append, lineFields_of_not_mem hlast]
  have hjoin : Text.joinWith '|' (lineFields before ++ [last]) = a.value := by
    rw [← hparts, joinWith_lineFields]
  rw [lineFields_line h, hr, Option.toList_none, List.append_nil, hparts,
    ofFields?_concat _ _ _ _ (lineFields_ne_nil _), joinWith_lineFields, hjoin]
  cases a
  cases hr
  rfl

theorem ofFields?_line_of_plain (h : a.Fits time number) (hr : a.reference = none)
    (hv : '|' ∉ a.value.toList) : ofFields? (lineFields (a.line time number)) = some a := by
  rw [lineFields_line h, hr, lineFields_of_not_mem hv]
  cases a
  cases hr
  rfl

theorem ofLine_line (h : a.Fits time number) : Event.ofLine (a.line time number) =
    (ofFields? (lineFields (a.line time number))).elim .other .assignment := by
  unfold Event.ofLine
  rw [lineFields_line h]
  show ((ofFields? _).map Event.assignment).getD .other = _
  cases ofFields? _ <;> rfl

/-- **Which assignments are read back.** A line gives back the name, the value and the key, or that
there is none, exactly when there is a key or the value does not end like one. In the other case
the value is cut at its last bar, and what stands behind is taken for the key. -/
theorem ofFields?_line_iff (h : a.Fits time number) :
    (ofFields? (lineFields (a.line time number)) = some a ↔
      (a.reference = none → ¬ EndsLikeKey a.value)) ∧
    (Event.ofLine (a.line time number) = .assignment a ↔
      (a.reference = none → ¬ EndsLikeKey a.value)) ∧
    ∀ before last, a.reference = none → a.value = before ++ "|" ++ last → '|' ∉ last.toList →
      isAddress last = true →
        ofFields? (lineFields (a.line time number)) = some ⟨a.name, before, some last⟩ := by
  have cut : ∀ before last, a.reference = none → a.value = before ++ "|" ++ last →
      '|' ∉ last.toList → isAddress last = true →
        ofFields? (lineFields (a.line time number)) = some ⟨a.name, before, some last⟩ := by
    intro before last hr hv hlast haddress
    rw [ofFields?_line_of_bar h hr hv hlast, if_pos haddress]
  have read : ofFields? (lineFields (a.line time number)) = some a ↔
      (a.reference = none → ¬ EndsLikeKey a.value) := by
    constructor
    · rintro hread hr ⟨before, last, hv, hlast, haddress⟩
      rw [cut before last hr hv hlast haddress] at hread
      rw [← Option.some.inj hread] at hr
      cases hr
    · intro hvalue
      cases hr : a.reference with
      | some key => exact ofFields?_line_of_key h hr
      | none =>
        by_cases hbar : '|' ∈ a.value.toList
        · obtain ⟨before, last, hv, hlast⟩ := Text.exists_last_of_mem hbar
          have haddress : ¬ isAddress last = true := fun haddress =>
            hvalue hr ⟨before, last, hv, hlast, haddress⟩
          rw [ofFields?_line_of_bar h hr hv hlast, if_neg haddress]
        · exact ofFields?_line_of_plain h hr hbar
  refine ⟨read, ?_, cut⟩
  rw [ofLine_line h, ← read]
  cases ofFields? (lineFields (a.line time number)) <;> simp

/-- A value in quotes that goes on like an address behind a bar. -/
def barred : Assignment := ⟨"s", "\x22a|0x1\x22", none⟩

/-- With a key in the line it is read back. -/
theorem ofFields?_line_keyed :
    let a : Assignment := { barred with reference := some "0x2" }
    a.Fits "0" "4" ∧ ofFields? (lineFields (a.line "0" "4")) = some a ∧
      Event.ofLine (a.line "0" "4") = .assignment a := by
  intro a
  have h : a.Fits "0" "4" :=
    ⟨by decide, by decide, by decide, fun key hkey => by cases hkey; decide⟩
  have hr : a.reference = none → ¬ EndsLikeKey a.value := fun hr => by cases hr
  exact ⟨h, (ofFields?_line_iff h).1.2 hr, (ofFields?_line_iff h).2.1.2 hr⟩

/-- Without one it is cut, although it ends in a quote. -/
theorem not_ofFields?_line_barred :
    barred.Fits "0" "4" ∧ barred.value.toList.getLast? = some '"' ∧
      barred.line "0" "4" = "0|VARIABLE_ASSIGNMENT|[4]|s|\x22a|0x1\x22" ∧
      ofFields? (lineFields (barred.line "0" "4")) ≠ some barred := by
  have h : barred.Fits "0" "4" :=
    ⟨by decide, by decide, by decide, fun key hkey => by cases hkey⟩
  exact ⟨h, by decide, by decide, by decide⟩

end Assignment

end Retrace
