import Retrace.Proofs.Text.Cuts
import Retrace.TypeName

/-!
# The keys of maps

The type of the keys stands between the first opening bracket and the last comma that the type of
the values follows. In the name of a map type this comma is the one behind the keys. Further back it
could only be the next character; then the type of the values with the closing bracket behind it
would be a comma with the type of the values behind it, which has one bracket less.

* `TypeName.mapOf`: the name of a map type.
* `TypeName.length_le_of_eq_mapOf`: the comma behind the keys is the last.
* `TypeName.KeysFrom`, `TypeName.KeysTo`: the bytes between which the type of the keys is looked for.
* `TypeName.exists_keysFrom`, `TypeName.exists_keysTo`: both are boundaries of characters.
* **`TypeName.mapKey_mapOf`**: the type of the keys of a map type, and what is cut from any text.
-/

namespace Retrace.TypeName

/-- The name of the type of the maps from `key` to `value`. -/
def mapOf (key value : String) : String :=
  "Map<" ++ key ++ "," ++ value ++ ">"

/-- The keys are looked for from this byte on: from the one behind the first opening bracket, or
from the first of all. -/
inductive KeysFrom (type : String) : Nat → Prop
  | bracket {before after : String} : type = before ++ "<" ++ after → '<' ∉ before.toList →
      KeysFrom type (before.utf8ByteSize + 1)
  | whole : '<' ∉ type.toList → KeysFrom type 0

/-- The keys are looked for up to this byte: up to the last comma that the type of the values
follows, or up to the end. -/
inductive KeysTo (type valueType : String) : Nat → Prop
  | comma {before after : String} : type = before ++ ("," ++ valueType) ++ after →
      (∀ before' after', type = before' ++ ("," ++ valueType) ++ after' →
        before'.length ≤ before.length) → KeysTo type valueType before.utf8ByteSize
  | whole : (∀ before after, type ≠ before ++ ("," ++ valueType) ++ after) →
      KeysTo type valueType type.utf8ByteSize

/-! ## The names of map types -/

/-- The comma behind the keys is the last that the type of the values follows. -/
theorem length_le_of_eq_mapOf {key value before after : List Char}
    (h : key ++ ',' :: value ++ ['>'] = before ++ ',' :: value ++ after) :
    before.length ≤ key.length := by
  refine Nat.le_of_not_lt fun hlt => ?_
  have hlength := congrArg List.length h
  simp only [List.length_append, List.length_cons, List.length_nil] at hlength
  obtain rfl : after = [] := List.eq_nil_of_length_eq_zero (by omega)
  have hends : key ++ [','] ++ (value ++ ['>']) = before ++ ',' :: value := by simpa using h
  have hbehind : value ++ ['>'] = ',' :: value :=
    List.append_inj_right' hends (by simp)
  -- the two ends do not hold the same number of brackets
  have hcount := congrArg (List.count '>') hbehind
  simp at hcount

theorem cutFirst_mapOf (key value : String) :
    Text.cutFirst '<' (mapOf key value).toList =
      some ("Map".toList, key.toList ++ ',' :: value.toList ++ ['>']) := by
  have hchars : (mapOf key value).toList =
      "Map".toList ++ '<' :: (key.toList ++ ',' :: value.toList ++ ['>']) := by simp [mapOf]
  rw [hchars, Text.cutFirst_append (by decide)]

theorem beforeLastWord_mapOf (key value : String) :
    Text.beforeLastWord (',' :: value.toList) (mapOf key value).toList =
      some ("Map<".toList ++ key.toList) := by
  have hchars : (mapOf key value).toList =
      ("Map<".toList ++ key.toList) ++ ',' :: value.toList ++ ['>'] := by simp [mapOf]
  rw [hchars, Text.beforeLastWord_eq_some_iff]
  exact ⟨⟨['>'], rfl⟩, fun _ _ h => length_le_of_eq_mapOf h⟩

theorem mapKey_of_mapOf (key value : String) : mapKey (mapOf key value) value = key := by
  rw [mapKey, cutFirst_mapOf, beforeLastWord_mapOf]
  exact String.ofList_toList

/-! ## Cutting at bytes -/

variable {s t u v : String} {p q : s.Pos}

theorem exists_splits (h : s = t ++ u) : ∃ p : s.Pos, p.Splits t u :=
  ⟨⟨t.rawEndPos, String.Pos.Raw.isValid_iff_exists_append.2 ⟨t, u, h, rfl⟩⟩, ⟨h, rfl⟩⟩

theorem extract_of_splits (hp : p.Splits t (u ++ v)) (hq : q.Splits (t ++ u) v) :
    s.extract p q = u := by
  have hs : s.toByteArray = t.toByteArray ++ (u.toByteArray ++ v.toByteArray) := by
    rw [hp.eq_append, String.toByteArray_append, String.toByteArray_append]
  have hstart : p.offset.byteIdx = t.toByteArray.size + 0 := by
    rw [hp.offset_eq_rawEndPos, String.byteIdx_rawEndPos, ← String.size_toByteArray, Nat.add_zero]
  have hstop : q.offset.byteIdx = t.toByteArray.size + u.toByteArray.size := by
    rw [hq.offset_eq_rawEndPos, String.byteIdx_rawEndPos, String.utf8ByteSize_append,
      ← String.size_toByteArray, ← String.size_toByteArray]
  rw [← String.toByteArray_inj, String.toByteArray_extract, hs, hstart, hstop,
    ByteArray.extract_append_size_add, ByteArray.extract_append_size_left,
    ByteArray.extract_zero_size]

theorem drop_of_splits {t' u' : String} (hp : p.Splits t u) (hq : q.Splits t' u') :
    String.ofList (t'.toList.drop t.length) = if p ≤ q then s.extract p q else "" := by
  split
  · next hle =>
    obtain ⟨between, rfl, rfl⟩ := (hp.le_iff_exists_eq_append hq).1 hle
    rw [extract_of_splits hp hq, String.toList_append, ← String.length_toList, List.drop_left,
      String.ofList_toList]
  · next hlt =>
    have hlt' : q < p := Std.not_le.1 hlt
    obtain ⟨between, -, rfl, -⟩ := (hq.lt_iff_exists_eq_append hp).1 hlt'
    rw [List.drop_of_length_le (by rw [String.length_toList, String.length_append]; omega)]

theorem exists_keysFrom (type : String) : ∃ (start : type.Pos) (before after : String),
    KeysFrom type start.offset.byteIdx ∧ start.Splits before after ∧
      ((Text.cutFirst '<' type.toList).elim 0 fun (b, _) => b.length + 1) = before.length := by
  by_cases hmem : '<' ∈ type.toList
  · obtain ⟨before, after, hchars, hbefore⟩ := List.eq_append_cons_of_mem hmem
    have htype : type = String.ofList before ++ "<" ++ String.ofList after := by
      rw [String.ext_iff, hchars]
      simp
    obtain ⟨start, hstart⟩ := exists_splits htype
    refine ⟨start, _, _, ?_, hstart, ?_⟩
    · rw [hstart.offset_eq_rawEndPos, String.byteIdx_rawEndPos, String.utf8ByteSize_append]
      exact .bracket htype (by simpa using hbefore)
    · rw [hchars, Text.cutFirst_append hbefore, String.length_append, String.length_ofList]
      rfl
  · obtain ⟨start, hstart⟩ := exists_splits (s := type) (t := "") (u := type) (by simp)
    refine ⟨start, _, _, ?_, hstart, ?_⟩
    · rw [hstart.offset_eq_rawEndPos]
      exact .whole hmem
    · rw [Text.cutFirst_of_not_mem hmem]
      rfl

theorem exists_keysTo (type valueType : String) : ∃ (stop : type.Pos) (before after : String),
    KeysTo type valueType stop.offset.byteIdx ∧ stop.Splits before after ∧
      (Text.beforeLastWord (',' :: valueType.toList) type.toList).getD type.toList =
        before.toList := by
  cases hlast : Text.beforeLastWord (',' :: valueType.toList) type.toList with
  | some before =>
    obtain ⟨⟨after, hchars⟩, hmax⟩ := Text.beforeLastWord_eq_some_iff.1 hlast
    have htype : type = String.ofList before ++ ("," ++ valueType) ++ String.ofList after := by
      rw [String.ext_iff, hchars]
      simp
    obtain ⟨stop, hstop⟩ := exists_splits (htype.trans (String.append_assoc ..))
    refine ⟨stop, _, _, ?_, hstop, by simp⟩
    rw [hstop.offset_eq_rawEndPos, String.byteIdx_rawEndPos]
    refine .comma htype fun before' after' htype' => ?_
    rw [← String.length_toList, String.length_ofList]
    exact hmax before'.toList after'.toList (by rw [htype']; simp)
  | none =>
    obtain ⟨stop, hstop⟩ := exists_splits (s := type) (t := type) (u := "") (by simp)
    refine ⟨stop, _, _, ?_, hstop, rfl⟩
    rw [hstop.offset_eq_rawEndPos, String.byteIdx_rawEndPos]
    refine .whole fun before after htype => ?_
    exact Text.beforeLastWord_eq_none_iff.1 hlast before.toList after.toList
      (by rw [htype]; simp)

/-- **The type of the keys.** In the name of a map type it is what the name was made with, whatever
commas and brackets stand in it and in the type of the values. From any text, with any type of
values, it is what stands between two boundaries of characters in that text, the first bracket and
the last comma that tells it, or nothing when they stand in the other order. So it is always a part
of the text. -/
theorem mapKey_mapOf (key value type valueType : String) :
    mapKey (mapOf key value) value = key ∧
    (∃ before after, type = before ++ mapKey type valueType ++ after) ∧
    ∃ start stop : type.Pos, KeysFrom type start.offset.byteIdx ∧
      KeysTo type valueType stop.offset.byteIdx ∧
      mapKey type valueType = if start ≤ stop then type.extract start stop else "" := by
  obtain ⟨start, before, behind, hfrom, hstart, hdrop⟩ := exists_keysFrom type
  obtain ⟨stop, front, after, hto, hstop, hfront⟩ := exists_keysTo type valueType
  have hcut : mapKey type valueType = if start ≤ stop then type.extract start stop else "" := by
    rw [mapKey, hdrop, hfront]
    exact drop_of_splits hstart hstop
  refine ⟨mapKey_of_mapOf key value, ?_, start, stop, hfrom, hto, hcut⟩
  rw [hcut]
  split
  · next hle =>
    obtain ⟨between, rfl, rfl⟩ := (hstart.le_iff_exists_eq_append hstop).1 hle
    rw [extract_of_splits hstart hstop]
    exact ⟨before, after, hstop.eq_append⟩
  · exact ⟨type, "", by simp⟩

/-- The last comma stands in front of the first bracket. -/
example : mapKey ",A<B" "A" = "" := by decide

end Retrace.TypeName
