import Retrace.Text.Cut

/-!
# Cut texts

A text is cut at every occurrence of a character, at the first one or at the last one.

* `Text.pieces_eq_splitOn`: cutting everywhere is splitting of lists.
* `Text.length_pieces`, `Text.not_mem_of_mem_pieces`: how many parts there are, and what they lack.
* `Text.splitOn_append`, `Text.joinWith_splitOn`: the parts of two texts with the character between
  them; joining parts undoes the cuts.
* `Text.eq_of_splitOn`: a text by its first four parts.
* `Text.cutFirst_append`, `Text.cutLast_append`: the two sides of the first and of the last
  occurrence.
* **`Text.cutLast_eq_some_iff`**, **`Text.beforeLastWord_eq_some_iff`**: the cuts at the last
  occurrence of a character and of a word, said without the search.
-/

namespace Retrace.Text

/-! ## Every occurrence -/

theorem pieces_eq_splitOn (d : Char) (cs : List Char) : pieces d cs = cs.splitOn d := by
  induction cs with
  | nil => rfl
  | cons c cs ih =>
    rw [pieces, List.splitOn_cons_eq_if_modifyHead, ih]
    by_cases hc : c = d
    · simp [hc]
    · rw [if_neg hc, if_neg (by simpa using hc)]
      cases hs : cs.splitOn d with
      | nil => exact absurd hs (List.splitOn_ne_nil d cs)
      | cons p ps => rfl

theorem pieces_cons (d c : Char) (cs : List Char) : ∃ p ps, pieces d cs = p :: ps ∧
    pieces d (c :: cs) = if c = d then [] :: p :: ps else (c :: p) :: ps := by
  obtain ⟨p, ps, hps⟩ := List.exists_cons_of_ne_nil (pieces_ne_nil d cs)
  exact ⟨p, ps, hps, by rw [pieces, hps]⟩

theorem length_pieces (d : Char) (cs : List Char) : (pieces d cs).length = cs.count d + 1 := by
  induction cs with
  | nil => rfl
  | cons c cs ih =>
    obtain ⟨p, ps, hps, hcons⟩ := pieces_cons d c cs
    rw [hps, List.length_cons] at ih
    rw [hcons, List.count_cons]
    split <;> simp_all

theorem not_mem_of_mem_pieces {d : Char} {cs p : List Char} (h : p ∈ pieces d cs) : d ∉ p := by
  induction cs generalizing p with
  | nil =>
    rw [List.mem_singleton.1 h]
    exact List.not_mem_nil
  | cons c cs ih =>
    obtain ⟨q, ps, hps, hcons⟩ := pieces_cons d c cs
    rw [hps] at ih
    rw [hcons] at h
    split at h
    · rcases List.mem_cons.1 h with rfl | h
      · exact List.not_mem_nil
      · exact ih h
    · next hc =>
      rcases List.mem_cons.1 h with rfl | h
      · exact List.not_mem_cons_of_ne_of_not_mem (Ne.symm hc) (ih List.mem_cons_self)
      · exact ih (List.mem_cons_of_mem _ h)

theorem sublist_of_mem_pieces {d : Char} {cs p : List Char} (h : p ∈ pieces d cs) :
    p.Sublist cs := by
  induction cs generalizing p with
  | nil =>
    obtain rfl := List.mem_singleton.1 h
    exact List.nil_sublist _
  | cons c cs ih =>
    obtain ⟨q, ps, hps, hcons⟩ := pieces_cons d c cs
    rw [hps] at ih
    rw [hcons] at h
    split at h
    · rcases List.mem_cons.1 h with rfl | h
      · exact List.nil_sublist _
      · exact (ih h).cons c
    · rcases List.mem_cons.1 h with rfl | h
      · exact (ih List.mem_cons_self).cons_cons c
      · exact (ih (List.mem_cons_of_mem _ h)).cons c

theorem eq_append_of_pieces {d : Char} {cs p q : List Char} {ps : List (List Char)}
    (h : pieces d cs = p :: q :: ps) : ∃ rest, cs = p ++ d :: rest ∧ pieces d rest = q :: ps := by
  induction cs generalizing p with
  | nil => simp [pieces] at h
  | cons c cs ih =>
    rw [pieces] at h
    split at h
    · next hc =>
      obtain ⟨rfl, hrest⟩ := List.cons.inj h
      exact ⟨cs, by rw [hc, List.nil_append], hrest⟩
    · split at h
      · simp at h
      · next p' ps' hps =>
        obtain ⟨rfl, rfl⟩ := List.cons.inj h
        obtain ⟨rest, rfl, hrest⟩ := ih hps
        exact ⟨rest, rfl, hrest⟩

theorem pieces_of_not_mem {d : Char} {cs : List Char} (h : d ∉ cs) : pieces d cs = [cs] := by
  rw [pieces_eq_splitOn, List.splitOn_eq_singleton h]

theorem splitOn_of_not_mem {d : Char} {s : String} (h : d ∉ s.toList) : splitOn d s = [s] := by
  rw [splitOn, pieces_of_not_mem h]
  exact congrArg (fun t => [t]) String.ofList_toList

theorem pieces_append (d : Char) (cs rest : List Char) :
    pieces d (cs ++ d :: rest) = pieces d cs ++ pieces d rest := by
  simp only [pieces_eq_splitOn]
  exact List.splitOn_append_cons_self cs rest

/-- **The same on strings.** -/
theorem splitOn_append (d : Char) (s t : String) :
    splitOn d (s ++ String.singleton d ++ t) = splitOn d s ++ splitOn d t := by
  have hchars : (s ++ String.singleton d ++ t).toList = s.toList ++ d :: t.toList := by simp
  rw [splitOn, hchars, pieces_append, List.map_append]
  rfl

theorem splitOn_ne_nil (d : Char) (s : String) : splitOn d s ≠ [] := by
  rw [splitOn, Ne, List.map_eq_nil_iff]
  exact pieces_ne_nil d s.toList

/-- **Joining the parts of a text gives the text.** -/
theorem joinWith_splitOn (d : Char) (s : String) : joinWith d (splitOn d s) = s := by
  have hparts : (splitOn d s).map String.toList = s.toList.splitOn d := by
    rw [splitOn, List.map_map, pieces_eq_splitOn]
    exact (List.map_congr_left fun p _ => String.toList_ofList).trans (List.map_id _)
  rw [joinWith, hparts, List.intercalate_splitOn]
  exact String.ofList_toList

theorem not_mem_of_mem_splitOn {d : Char} {s part : String} (h : part ∈ splitOn d s) :
    d ∉ part.toList := by
  obtain ⟨p, hp, rfl⟩ := List.mem_map.1 h
  rw [String.toList_ofList]
  exact not_mem_of_mem_pieces hp

theorem length_splitOn (d : Char) (s : String) :
    (splitOn d s).length = s.toList.count d + 1 := by
  rw [splitOn, List.length_map, length_pieces]

theorem joinWith_cons (d : Char) (s : String) {parts : List String} (h : parts ≠ []) :
    joinWith d (s :: parts) = s ++ String.singleton d ++ joinWith d parts := by
  obtain ⟨t, parts, rfl⟩ := List.exists_cons_of_ne_nil h
  simp [joinWith, String.ext_iff, List.intercalate_cons_cons]

theorem eq_of_splitOn {d : Char} {s p₁ p₂ p₃ p₄ : String} {parts : List String}
    (h : splitOn d s = p₁ :: p₂ :: p₃ :: p₄ :: parts) (hparts : parts ≠ []) :
    s = p₁ ++ String.singleton d ++ (p₂ ++ String.singleton d ++ (p₃ ++ String.singleton d ++
      (p₄ ++ String.singleton d ++ joinWith d parts))) := by
  rw [← joinWith_splitOn d s, h, joinWith_cons d p₁ (by simp), joinWith_cons d p₂ (by simp),
    joinWith_cons d p₃ (by simp), joinWith_cons d p₄ hparts]

/-! ## The first and the last occurrence -/

theorem cutFirst_of_not_mem {d : Char} {cs : List Char} (h : d ∉ cs) : cutFirst d cs = none := by
  induction cs with
  | nil => rfl
  | cons c cs ih =>
    rw [List.mem_cons, not_or] at h
    rw [cutFirst, if_neg (Ne.symm h.1), ih h.2, Option.map_none]

theorem cutFirst_append {d : Char} {before : List Char} (h : d ∉ before) (after : List Char) :
    cutFirst d (before ++ d :: after) = some (before, after) := by
  induction before with
  | nil => simp [cutFirst]
  | cons c before ih =>
    rw [List.mem_cons, not_or] at h
    rw [List.cons_append, cutFirst, if_neg (Ne.symm h.1), ih h.2, Option.map_some]

theorem eq_append_of_cutFirst {d : Char} {cs before after : List Char}
    (h : cutFirst d cs = some (before, after)) : cs = before ++ d :: after := by
  induction cs generalizing before with
  | nil => cases h
  | cons c cs ih =>
    rw [cutFirst] at h
    split at h
    · next hc =>
      cases h
      rw [hc, List.nil_append]
    · obtain ⟨⟨before', after'⟩, hcut, heq⟩ := Option.map_eq_some_iff.1 h
      cases heq
      rw [ih hcut, List.cons_append]

theorem cutLast_of_not_mem {d : Char} {cs : List Char} (h : d ∉ cs) : cutLast d cs = none := by
  have h' : d ∉ cs.reverse := by simpa using h
  rw [cutLast, cutFirst_of_not_mem h', Option.map_none]

theorem cutLast_append {d : Char} {after : List Char} (h : d ∉ after) (before : List Char) :
    cutLast d (before ++ d :: after) = some (before, after) := by
  have h' : d ∉ after.reverse := by simpa using h
  have hrev : (before ++ d :: after).reverse = after.reverse ++ d :: before.reverse := by simp
  rw [cutLast, hrev, cutFirst_append h', Option.map_some]
  dsimp only
  rw [List.reverse_reverse, List.reverse_reverse]

theorem exists_append_last {d : Char} {cs : List Char} (h : d ∈ cs) :
    ∃ before after, cs = before ++ d :: after ∧ d ∉ after := by
  obtain ⟨after, before, hsplit, hlast⟩ := List.eq_append_cons_of_mem (List.mem_reverse.2 h)
  refine ⟨before.reverse, after.reverse, ?_, by simpa using hlast⟩
  rw [← List.reverse_reverse cs, hsplit]
  simp

theorem exists_last_of_mem {d : Char} {s : String} (h : d ∈ s.toList) :
    ∃ before last : String, s = before ++ String.singleton d ++ last ∧ d ∉ last.toList := by
  obtain ⟨before, after, hsplit, hlast⟩ := exists_append_last h
  refine ⟨String.ofList before, String.ofList after, ?_, by simpa using hlast⟩
  rw [← String.ofList_toList (s := s), hsplit]
  simp [String.ext_iff]

/-- **The cut at the last occurrence** leaves a text without the character behind it. -/
theorem cutLast_eq_some_iff {d : Char} {cs before after : List Char} :
    cutLast d cs = some (before, after) ↔ cs = before ++ d :: after ∧ d ∉ after := by
  constructor
  · intro h
    by_cases hd : d ∈ cs
    · obtain ⟨before', after', rfl, hlast⟩ := exists_append_last hd
      rw [cutLast_append hlast] at h
      obtain ⟨rfl, rfl⟩ := Prod.mk.inj (Option.some.inj h)
      exact ⟨rfl, hlast⟩
    · rw [cutLast_of_not_mem hd] at h
      cases h
  · rintro ⟨rfl, hlast⟩
    exact cutLast_append hlast before

theorem cutLast_eq_none_iff {d : Char} {cs : List Char} : cutLast d cs = none ↔ d ∉ cs := by
  refine ⟨fun h hd => ?_, cutLast_of_not_mem⟩
  obtain ⟨before, after, rfl, hlast⟩ := exists_append_last hd
  rw [cutLast_append hlast] at h
  cases h

theorem ne_of_cutLast {d : Char} {cs before after : List Char}
    (h : cutLast d cs = some (before, after)) : before ≠ cs := by
  obtain ⟨rfl, -⟩ := cutLast_eq_some_iff.1 h
  intro he
  have hlength := congrArg List.length he
  simp only [List.length_append, List.length_cons] at hlength
  omega

/-! ## The last occurrence of a word -/

section Words

variable {w cs before : List Char}

theorem eq_append_of_beforeLastWord (h : beforeLastWord w cs = some before) :
    ∃ after, cs = before ++ w ++ after := by
  induction cs generalizing before with
  | nil =>
    rw [beforeLastWord] at h
    split at h
    · next hw =>
      obtain rfl := Option.some.inj h
      exact ⟨[], by simpa using hw⟩
    · cases h
  | cons c cs ih =>
    rw [beforeLastWord] at h
    split at h
    · next before' hlast =>
      obtain rfl := Option.some.inj h
      obtain ⟨after, rfl⟩ := ih hlast
      exact ⟨after, rfl⟩
    · split at h
      · next hw =>
        obtain rfl := Option.some.inj h
        obtain ⟨after, hafter⟩ := List.isPrefixOf_iff_prefix.1 hw
        exact ⟨after, hafter.symm⟩
      · cases h

/-- Where a word occurs, its last occurrence is found, and it is not further in front. -/
theorem exists_beforeLastWord (w before after : List Char) :
    ∃ last, beforeLastWord w (before ++ w ++ after) = some last ∧ before.length ≤ last.length := by
  induction before with
  | nil =>
    have hw : w.isPrefixOf (w ++ after) := List.isPrefixOf_iff_prefix.2 (List.prefix_append w after)
    rw [List.nil_append]
    cases hcs : w ++ after with
    | nil =>
      refine ⟨[], ?_, Nat.le_refl 0⟩
      rw [beforeLastWord, if_pos (by simp [(List.append_eq_nil_iff.1 hcs).1])]
    | cons c cs =>
      rw [hcs] at hw
      rw [beforeLastWord, if_pos hw]
      split
      · exact ⟨_, rfl, Nat.zero_le _⟩
      · exact ⟨[], rfl, Nat.le_refl 0⟩
  | cons c before ih =>
    obtain ⟨last, hlast, hle⟩ := ih
    refine ⟨c :: last, ?_, Nat.succ_le_succ hle⟩
    rw [List.cons_append, List.cons_append, beforeLastWord, hlast]

/-- **What is found is the last occurrence of the word.** -/
theorem beforeLastWord_eq_some_iff : beforeLastWord w cs = some before ↔
    (∃ after, cs = before ++ w ++ after) ∧
      ∀ before' after', cs = before' ++ w ++ after' → before'.length ≤ before.length := by
  constructor
  · intro h
    refine ⟨eq_append_of_beforeLastWord h, ?_⟩
    rintro before' after' rfl
    obtain ⟨last, hlast, hle⟩ := exists_beforeLastWord w before' after'
    rw [h] at hlast
    obtain rfl := Option.some.inj hlast
    exact hle
  · rintro ⟨⟨after, rfl⟩, hmax⟩
    obtain ⟨last, hlast, hle⟩ := exists_beforeLastWord w before after
    obtain ⟨after', heq⟩ := eq_append_of_beforeLastWord hlast
    have hlength : before.length = last.length := Nat.le_antisymm hle (hmax last after' heq)
    rw [List.append_assoc, List.append_assoc] at heq
    rw [hlast, (List.append_inj heq hlength).1]

theorem beforeLastWord_eq_none_iff :
    beforeLastWord w cs = none ↔ ∀ before after, cs ≠ before ++ w ++ after := by
  constructor
  · rintro h before after rfl
    obtain ⟨last, hlast, -⟩ := exists_beforeLastWord w before after
    rw [h] at hlast
    cases hlast
  · intro h
    cases hlast : beforeLastWord w cs with
    | none => rfl
    | some last =>
      obtain ⟨after, heq⟩ := eq_append_of_beforeLastWord hlast
      exact absurd heq (h last after)

end Words

/-! ## Suffixes -/

theorem exists_suffix_of_anySuffix {p : List Char → Bool} {cs : List Char}
    (h : anySuffix p cs = true) : ∃ suffix, suffix <:+ cs ∧ p suffix = true := by
  induction cs with
  | nil => exact ⟨[], List.suffix_refl _, h⟩
  | cons c cs ih =>
    rcases Bool.or_eq_true_iff.1 h with h | h
    · exact ⟨c :: cs, List.suffix_refl _, h⟩
    · obtain ⟨suffix, hsuffix, hp⟩ := ih h
      exact ⟨suffix, hsuffix.trans (List.suffix_cons c cs), hp⟩

end Retrace.Text
