import Retrace.Proofs.Text.Cuts
import Retrace.Trace.Event

/-!
# Lines of debug output

A line with debug output has at least four bars, and what stands behind the fourth is the text,
whatever bars it holds. The shape of the line sees to the bars: one in front of the line number, one
at its bracket, and two behind.

* `count_of_isDebugShape`: a line of this shape has four bars.
* **`Event.eq_of_ofLine_debug`**: the line of debug output.
-/

namespace Retrace

/-! ## Bars -/

theorem count_of_afterLineNumber {cs rest : List Char} (h : afterLineNumber cs = some rest) :
    rest.count '|' + 1 ≤ cs.count '|' := by
  unfold afterLineNumber at h
  split at h
  · next cs =>
    split at h
    · cases h
    · split at h
      · next rest' hrest =>
        cases h
        have hsuffix : rest.Sublist cs :=
          (List.sublist_cons_self ']' rest).trans (hrest ▸ List.dropWhile_sublist _)
        have hcount := hsuffix.count_le '|'
        simp only [List.count_cons]
        simp only [beq_self_eq_true, if_true]
        omega
      · cases h
  · cases h

/-- **A line with the shape of debug output has four bars.** -/
theorem count_of_isDebugShape {line : String} (h : isDebugShape line = true) :
    4 ≤ line.toList.count '|' := by
  obtain ⟨piece, hpiece, hnumber⟩ := List.any_eq_true.1 h
  have hline := (Text.sublist_of_mem_pieces hpiece).count_le '|'
  unfold hasLineNumber at hnumber
  split at hnumber
  · next before behind hcut =>
    -- the first bar of the piece, and a line number somewhere behind it
    obtain ⟨suffix, hsuffix, hany⟩ := Text.exists_suffix_of_anySuffix hnumber
    obtain ⟨rest, hrest, hbars⟩ := (Option.any_eq_true ..).1 hany
    have hbehind := hsuffix.sublist.count_le '|'
    have hnumbered := count_of_afterLineNumber hrest
    have hpieces : behind.count '|' + 1 ≤ piece.count '|' := by
      rw [Text.eq_append_of_cutFirst hcut, List.count_append, List.count_cons_self]
      omega
    have htwo : 2 ≤ rest.count '|' := by
      split at hbars
      · next rest' =>
        have := List.count_pos_iff.2 (of_decide_eq_true hbars)
        rw [List.count_cons_self]
        omega
      · cases hbars
    omega
  · cases hnumber

/-! ## Events -/

namespace Event

theorem ofFields?_of_ofLine {line : String} {e : Event} (h : ofLine line = e) (he : e ≠ .other) :
    ∃ time kind number rest, lineFields line = time :: kind :: number :: rest ∧
      ofFields? line kind (lineFields line) = some e := by
  unfold ofLine at h
  split at h
  · next time kind number rest hfields =>
    refine ⟨time, kind, number, rest, hfields, ?_⟩
    rw [hfields]
    cases hread : ofFields? line kind (time :: kind :: number :: rest) with
    | none =>
      rw [hread] at h
      exact absurd h.symm he
    | some e' =>
      rw [hread] at h
      exact congrArg some h
  · exact absurd h.symm he

theorem ofFields?_eq_debug {line kind text : String} {fields : List String} {n : Nat}
    (h : ofFields? line kind fields = some (.debug n text)) :
    kind = "USER_DEBUG" ∧ isDebugShape line = true ∧ debugOutput? fields = some (n, text) := by
  unfold ofFields? at h
  split at h
  all_goals simp_all

/-- **The line of debug output** has three fields without bars around its kind, the second of them
the line number. Everything behind is the text. -/
theorem eq_of_ofLine_debug {line text : String} {n : Nat} (h : ofLine line = .debug n text) :
    ∃ time number level : String, (∀ s ∈ [time, number, level], '|' ∉ s.toList) ∧
      lineNumber? number = some n ∧
      line = time ++ "|USER_DEBUG|" ++ number ++ "|" ++ level ++ "|" ++ text := by
  obtain ⟨time, kind, number, rest, hfields, hread⟩ := ofFields?_of_ofLine h (by simp)
  obtain ⟨rfl, hshape, houtput⟩ := ofFields?_eq_debug hread
  have habsent : ∀ s ∈ lineFields line, '|' ∉ s.toList := fun s hs =>
    Text.not_mem_of_mem_splitOn hs
  -- four bars make five fields
  have hlength : 5 ≤ (lineFields line).length := by
    have hbars := count_of_isDebugShape hshape
    rw [lineFields, Text.length_splitOn]
    omega
  rw [hfields] at habsent houtput hlength
  obtain ⟨level, first, parts, rfl⟩ : ∃ level first parts, rest = level :: first :: parts := by
    rcases rest with _ | ⟨level, _ | ⟨first, parts⟩⟩
    · simp at hlength
    · simp at hlength
    · exact ⟨level, first, parts, rfl⟩
  rw [debugOutput?, Option.bind_eq_some_iff] at houtput
  obtain ⟨n', hn, htext⟩ := houtput
  simp only [statementLine?, List.getElem?_cons_succ, List.getElem?_cons_zero,
    Option.bind_some] at hn
  rw [if_pos (by simp)] at htext
  obtain ⟨rfl, rfl⟩ := Prod.mk.inj (Option.some.inj htext)
  refine ⟨time, number, level, fun s hs => ?_, hn, ?_⟩
  · obtain rfl | rfl | rfl : s = time ∨ s = number ∨ s = level := by simpa using hs
    all_goals exact habsent _ (by simp)
  · have hline := Text.eq_of_splitOn hfields (List.cons_ne_nil first parts)
    rw [hline]
    simp [String.ext_iff]

end Event

end Retrace
