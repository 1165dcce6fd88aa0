import Mathlib.Data.List.Flatten
import Mathlib.Data.List.Nodup
import Retrace.Overlay
import Retrace.Proofs.State.Slots
import Retrace.Proofs.Tables

/-!
# Contents of snapshots

What a snapshot lists, told without going through it: the captured values in a row, the texts of
strings, the values of trigger variables, and the children of each object.

* `Slot.pairName`: the names of the children of maps, which are no names of other children.
* `Extent.Lists`: what an object that is no map has under a name.
* `Item`, `Extent.mapEntries?`, `Extent.items`: the same in a row, as an overlay writes it.
* `Extent.tellsTriggers`: the extents that list trigger variables.
* `Snapshot.captured`, `Snapshot.objects`, `Snapshot.triggers`: what a snapshot lists, in a row.
* `Snapshot.texts`, `Snapshot.text?`: the captured strings, and the one at an address.
* **`Overlay.get?_stringsOf`**: these are the strings that an overlay collects.
-/

namespace Retrace

/-! ## Children -/

namespace Slot

/-- The name of the child of a map with the given index. -/
def pairName (index : Nat) : String :=
  pairKey ++ toString index ++ "_" ++ pairValue ++ toString index

theorem length_pairName (index : Nat) :
    (pairName index).length = 9 + 2 * (toString index).length := by
  have hkey : pairKey.length = 3 := by decide
  have hvalue : pairValue.length = 5 := by decide
  have hbar : "_".length = 1 := by decide
  simp only [pairName, String.length_append]
  omega

theorem pairKey_ne_pairName (index : Nat) : pairKey ≠ pairName index := by
  intro h
  have := congrArg String.length h
  rw [length_pairName, show pairKey.length = 3 by decide] at this
  omega

theorem pairValue_ne_pairName (index : Nat) : pairValue ≠ pairName index := by
  intro h
  have := congrArg String.length h
  rw [length_pairName, show pairValue.length = 5 by decide] at this
  omega

theorem toString_ne_pairName (n index : Nat) : toString n ≠ pairName index := by
  intro h
  have hk : 'k' ∈ (toString n).toList := by
    rw [h]
    simp [pairName, pairKey]
  rw [Nat.toString_eq_ofList_toDigits, String.toList_ofList] at hk
  cases Nat.isDigit_of_mem_toDigits (Nat.succ_pos 9) (Nat.le_refl 10) hk

theorem toString_inj {i j : Nat} (h : toString i = toString j) : i = j := by
  rw [Nat.toString_eq_ofList_toDigits, Nat.toString_eq_ofList_toDigits, String.ofList_inj] at h
  have := congrArg (Nat.ofDigitChars 10 · 0) h
  simpa only [Nat.ofDigitChars_ten_toDigits] using this

theorem pairName_inj {i j : Nat} (h : pairName i = pairName j) : i = j := by
  have hlen : (toString i).length = (toString j).length := by
    have := congrArg String.length h
    rw [length_pairName, length_pairName] at this
    omega
  -- names of one length end in numbers of one length
  have hs := congrArg String.toList h
  simp only [pairName, String.toList_append] at hs
  exact toString_inj (String.toList_inj.1 (List.append_inj' hs hlen).2)

/-- A place in which a child of a map may stand: under its name, or, in no collection any more,
as a trigger variable. -/
def MayHoldPair : Slot → Prop
  | field _ name => ∃ index, name = pairName index
  | globalVar _ _ => True
  | static _ _ | localVar _ _ | object _ => False

theorem IsVariable.not_mayHoldPair {x : Slot} (h : x.IsVariable) : ¬ x.MayHoldPair := by
  cases x with
  | static | localVar => exact id
  | field | globalVar | object => exact absurd h id

end Slot

/-- A captured child: its name, its type when one is told, and its value. -/
structure Item where
  /-- The name. -/
  name : String
  /-- The type. -/
  typeName : Option String := none
  /-- The value, possibly an address. -/
  value : Json

/-- No child of a map gets another type by the item. -/
def Item.NoPair (item : Item) : Prop :=
  item.typeName = none ∨ ∀ index, item.name ≠ Slot.pairName index

namespace Extent

variable (extent : Extent)

/-- The type of the elements, or of the values of a map. -/
def itemType : String := extent.collectionType.getD ""

/-- The type of the keys of a map. -/
def keyType : String := TypeName.mapKey extent.typeName extent.itemType

/-- The entries of a captured map. -/
def mapEntries? (content : Content) : Option (List Entry) :=
  if TypeName.isCollection extent.typeName then content.entries else none

/-- The captured children of an object that is no map: its elements when it is a list or a set, and
its fields when it is neither. -/
def items (content : Content) : List Item :=
  if TypeName.isCollection extent.typeName then
    content.elements.zipIdx.map fun (element, index) =>
      ⟨toString index, some extent.itemType, element⟩
  else (content.entries.getD []).map fun field => ⟨field.key, none, field.value⟩

/-- **What an object that is no map has under a name**, as the snapshot writes it. An element of a
list or a set has its place for a name, and stands as the member `value` of an item, where a missing
one counts as null; a field of any other object has a name of its own. -/
inductive Lists (content : Content) : String → Json → Prop
  | element (collection : TypeName.isCollection extent.typeName = true) {elements : List Json}
      (listed : content.value = .array elements) {index : Nat} {element : Json}
      (placed : elements[index]? = some element) :
      Lists content (toString index) ((element.get? "value").getD .null)
  | field (single : TypeName.isCollection extent.typeName = false) {fields : List Entry}
      (listed : content.entries = some fields) {field : Entry} (mem : field ∈ fields) :
      Lists content field.key field.value

theorem Lists.exists_item {extent : Extent} {content : Content} {name : String} {v : Json}
    (h : extent.Lists content name v) :
    ∃ item ∈ extent.items content, item.name = name ∧ item.value = v := by
  unfold items
  cases h with
  | @element collection elements listed index element placed =>
    rw [if_pos collection, Content.elements, listed]
    refine ⟨_, List.mem_map.2 ⟨((element.get? "value").getD .null, index), ?_, rfl⟩, rfl, rfl⟩
    rw [List.mk_mem_zipIdx_iff_getElem?, List.getElem?_map, placed]
    rfl
  | @field single fields listed field mem =>
    rw [single, if_neg Bool.false_ne_true, listed]
    exact ⟨_, List.mem_map_of_mem mem, rfl, rfl⟩

/-- The key in a child of a map. -/
def keyItem (entry : Entry) : Item := ⟨pairKey, some extent.keyType, .string entry.key⟩

/-- The value in a child of a map. -/
def valueItem (entry : Entry) : Item := ⟨pairValue, some extent.itemType, entry.value⟩

theorem noPair_items (content : Content) : ∀ item ∈ extent.items content, item.NoPair := by
  intro item hitem
  unfold items at hitem
  split at hitem
  · obtain ⟨e, -, rfl⟩ := List.mem_map.1 hitem
    exact .inr (Slot.toString_ne_pairName e.2)
  · obtain ⟨field, -, rfl⟩ := List.mem_map.1 hitem
    exact .inl rfl

theorem noPair_keyItem (entry : Entry) : (extent.keyItem entry).NoPair :=
  .inr Slot.pairKey_ne_pairName

theorem noPair_valueItem (entry : Entry) : (extent.valueItem entry).NoPair :=
  .inr Slot.pairValue_ne_pairName

end Extent

/-! ## What a snapshot lists -/

/-- Whether trigger variables are among the symbols: the extent is of truth values or of
collections, and the first symbol of its first value is that of a trigger variable. -/
def Extent.tellsTriggers (extent : Extent) : Bool :=
  (TypeName.isBoolean extent.typeName || TypeName.isCollection extent.typeName) &&
    match extent.captures with
    | { symbols := some (symbol :: _), .. } :: _ => Text.startsWith symbol "Trigger."
    | _ => false

namespace Snapshot

/-- The captured values, each with what is told of its type. -/
def captured (snapshot : Snapshot) : List (Extent × Capture) :=
  snapshot.extents.flatMap fun extent => extent.captures.map (extent, ·)

/-- The captured values that are objects. -/
def objects (snapshot : Snapshot) : List (Extent × Capture) :=
  (snapshot.extents.filter fun extent => !TypeName.isPrimitive extent.typeName).flatMap
    fun extent => extent.captures.map (extent, ·)

/-- The captured values of trigger variables, once for each of the variables. -/
def triggers (snapshot : Snapshot) : List (Extent × Capture × String) :=
  (snapshot.extents.filter Extent.tellsTriggers).flatMap fun extent =>
    extent.captures.flatMap fun c =>
      ((c.symbols.getD []).filter (Text.startsWith · "Trigger.")).map (extent, c, ·)

/-- The captured strings in quotes, with their addresses. -/
def texts (snapshot : Snapshot) : List (String × String) :=
  (snapshot.extents.filter fun extent => Text.lower extent.typeName = "string").flatMap
    fun extent => extent.captures.map fun c => (c.address, "'" ++ c.content.value.text ++ "'")

/-- The captured string at an address, in quotes: of several the last. -/
def text? (snapshot : Snapshot) (address : String) : Option String :=
  (snapshot.texts.filter (·.1 = address)).getLast?.map Prod.snd

theorem objects_sublist (snapshot : Snapshot) : snapshot.objects.Sublist snapshot.captured :=
  List.filter_sublist.flatMap _

theorem addresses_texts (snapshot : Snapshot) :
    (snapshot.texts.map Prod.fst).Sublist (snapshot.captured.map (·.2.address)) := by
  simp only [texts, captured, List.map_flatMap, List.map_map]
  exact List.filter_sublist.flatMap _

/-- When no address is captured twice, the order of the strings does not matter. -/
theorem text?_iff {snapshot : Snapshot} (distinct : (snapshot.captured.map (·.2.address)).Nodup)
    {address text : String} :
    snapshot.text? address = some text ↔ (address, text) ∈ snapshot.texts := by
  have nodup := distinct.sublist snapshot.addresses_texts
  have here : ∀ {e}, (snapshot.texts.filter (·.1 = address)).getLast? = some e →
      e ∈ snapshot.texts ∧ e.1 = address := fun h => by
    simpa using List.mem_of_getLast? h
  constructor
  · intro h
    obtain ⟨e, he, rfl⟩ := Option.map_eq_some_iff.1 h
    obtain ⟨hmem, rfl⟩ := here he
    exact hmem
  · intro h
    have hfilter : (address, text) ∈ snapshot.texts.filter (·.1 = address) := by simpa using h
    obtain ⟨e, he⟩ := Option.ne_none_iff_exists'.1 fun hnone =>
      List.ne_nil_of_mem hfilter (List.getLast?_eq_none_iff.1 hnone)
    obtain ⟨hmem, haddress⟩ := here he
    have hsame := List.inj_on_of_nodup_map nodup hmem h haddress
    rw [text?, he, hsame]
    rfl

end Snapshot

/-- **An overlay collects the captured strings.** -/
theorem Overlay.get?_stringsOf (snapshot : Snapshot) :
    (Overlay.stringsOf snapshot).get? = snapshot.text? := by
  have fold : Overlay.stringsOf snapshot =
      snapshot.texts.foldl (fun t e => t.insert e.1 e.2) .empty := by
    simp only [Overlay.stringsOf, Snapshot.texts, List.foldl_flatMap, List.foldl_map]
    rfl
  funext address
  rw [fold, Table.get?_foldl_insert, Table.get?_empty, Option.or_none]
  rfl

theorem Overlay.isTriggerExtent_eq (extent : Extent) :
    isTriggerExtent extent = extent.tellsTriggers := by
  unfold isTriggerExtent Extent.tellsTriggers Capture.firstSymbol?
  congr 1
  rcases extent.captures with _ | ⟨⟨_, _, _, _ | _ | _, _⟩, _⟩ <;> rfl

end Retrace
