import Mathlib.Data.List.Forall2
import Retrace.Proofs.Json.Spelling
import Retrace.Proofs.Text.Counts
import Retrace.Snapshot.Decode

/-!
# Decoding written snapshots

Each level of a snapshot is written as an object with its fields under their names, in any order and
with anything else between them. Such an object is decoded to the very snapshot, when its free-form
values are spelled as they are read. Where a part that makes up a record is missing, or null stands
for something that cannot be null, nothing is decoded.

* `RequiredField`, `DefaultField`, `OptionalField`: how the three kinds of fields are written.
* `Snapshot.Fields`, and the same for each level: how a level is written.
* `Snapshot.canonical?`: a snapshot with its free-form values as they are read.
* `Snapshot.ofBareJson?_of`: what is decoded from a written snapshot.
* `Snapshot.Flawed`: objects with a part missing, or null, at some level.
* `Snapshot.isRecord_toJson`: encoded snapshots are written so.
* **`Snapshot.ofJson?_of_presents`**: bare or in an envelope, what is decoded and what is not.
-/

namespace Retrace

variable {α β : Type}

/-! ## Fields -/

/-- A field that has to be there, by what it holds. -/
inductive RequiredField (written : Json → α → Prop) : Option Json → α → Prop
  | here {v : Json} {a : α} (h : written v a) : RequiredField written (some v) a

/-- A field that may be left out when it holds the default. -/
inductive DefaultField (default : α) (written : Json → α → Prop) : Option Json → α → Prop
  | leftOut : DefaultField default written none default
  | here {v : Json} {a : α} (h : written v a) : DefaultField default written (some v) a

/-- A field that may be left out or null when it holds nothing. -/
inductive OptionalField (written : Json → α → Prop) : Option Json → Option α → Prop
  | leftOut : OptionalField written none none
  | null : OptionalField written (some .null) none
  | here {v : Json} {a : α} (h : written v a) : OptionalField written (some v) (some a)

section Fields

variable {written : Json → α → Prop} {decode : Json → Option β} {field : Option Json}

theorem RequiredField.decode_eq {a : α} {b : Option β} (h : RequiredField written field a)
    (hdecode : ∀ v, written v a → decode v = b) : required? decode field = b := by
  cases h with
  | here hv => exact hdecode _ hv

theorem DefaultField.decode_eq {a default : α} {default' : β} {b : Option β}
    (h : DefaultField default written field a) (hdefault : a = default → b = some default')
    (hdecode : ∀ v, written v a → decode v = b) : orDefault? default' decode field = b := by
  cases h with
  | leftOut => exact (hdefault rfl).symm
  | here hv => exact hdecode _ hv

theorem OptionalField.decode_eq {a : Option α} {f : α → Option β}
    (h : OptionalField written field a) (hnull : ∀ a, ¬ written .null a)
    (hdecode : ∀ v a, written v a → decode v = f a) : optional? decode field = a.mapM f := by
  cases h with
  | leftOut => rfl
  | null => rfl
  | @here v a hv =>
    have hne : v ≠ .null := by
      rintro rfl
      exact hnull a hv
    rw [optional?, hdecode v a hv]
    · rfl
    · simpa using hne

end Fields

/-! ## Kinds of values -/

namespace Json

/-- A text. -/
def IsString (v : Json) (s : String) : Prop := v = .string s

/-- A truth value. -/
def IsBool (v : Json) (b : Bool) : Prop := v = .bool b

/-- A count, with its digits. -/
def IsCount (v : Json) (n : Nat) : Prop := v = .ofNat n ∧ n ≤ Text.maxCount

/-- An array of values. -/
def IsList (written : Json → α → Prop) (v : Json) (as : List α) : Prop :=
  ∃ items, v = .array items ∧ List.Forall₂ written items as

/-- An object with fields. -/
def IsRecord (fields : List (String × Json) → α → Prop) (v : Json) (a : α) : Prop :=
  ∃ members, v = .object members ∧ fields members a

theorem asString?_of {v : Json} {s : String} (h : v.IsString s) : v.asString? = some s := by
  rw [h]
  rfl

theorem asBool?_of {v : Json} {b : Bool} (h : v.IsBool b) : v.asBool? = some b := by
  rw [h]
  rfl

theorem asCount?_of {v : Json} {n : Nat} (h : v.IsCount n) : v.asCount? = some n := by
  rw [h.1]
  exact Text.readCount?_toString h.2

theorem asList?_of {written : Json → α → Prop} {decode : Json → Option β} {f : α → Option β}
    {v : Json} {as : List α} (h : v.IsList written as)
    (hdecode : ∀ v a, written v a → decode v = f a) : v.asList? decode = as.mapM f := by
  obtain ⟨items, rfl, hitems⟩ := h
  show items.mapM decode = as.mapM f
  induction hitems with
  | nil => rfl
  | cons hv _ ih => rw [List.mapM_cons, List.mapM_cons, hdecode _ _ hv, ih]

end Json

/-! ## Levels -/

/-- The record around the value of an entry. -/
def Entry.ValueFields (members : List (String × Json)) (v : Json) : Prop :=
  DefaultField .null Eq (members.lookup "value") v

/-- The fields of an entry. -/
structure Entry.Fields (members : List (String × Json)) (e : Entry) : Prop where
  key : RequiredField Json.IsString (members.lookup "keyDisplayValue") e.key
  value : RequiredField (Json.IsRecord Entry.ValueFields) (members.lookup "value") e.value

/-- The fields of the content of a captured value. -/
structure Content.Fields (members : List (String × Json)) (c : Content) : Prop where
  value : DefaultField .null Eq (members.lookup "value") c.value
  entries : OptionalField (Json.IsList (Json.IsRecord Entry.Fields)) (members.lookup "entry")
    c.entries

/-- The fields of a captured value. -/
structure Capture.Fields (members : List (String × Json)) (c : Capture) : Prop where
  address : RequiredField Json.IsString (members.lookup "address") c.address
  isStatic : OptionalField Json.IsBool (members.lookup "isStatic") c.isStatic
  size : DefaultField 0 Json.IsCount (members.lookup "size") c.size
  symbols : OptionalField (Json.IsList Json.IsString) (members.lookup "symbols") c.symbols
  content : DefaultField {} (Json.IsRecord Content.Fields) (members.lookup "value") c.content

/-- The fields of the captured values of one type. -/
structure Extent.Fields (members : List (String × Json)) (e : Extent) : Prop where
  collectionType : OptionalField Json.IsString (members.lookup "collectionType") e.collectionType
  count : DefaultField 0 Json.IsCount (members.lookup "count") e.count
  captures : DefaultField [] (Json.IsList (Json.IsRecord Capture.Fields)) (members.lookup "extent")
    e.captures
  totalSize : DefaultField 0 Json.IsCount (members.lookup "totalSize") e.totalSize
  typeName : RequiredField Json.IsString (members.lookup "typeName") e.typeName

/-- The field of a snapshot. -/
structure Snapshot.Fields (members : List (String × Json)) (s : Snapshot) : Prop where
  extents : DefaultField [] (Json.IsList (Json.IsRecord Extent.Fields)) (members.lookup "extents")
    s.extents

/-! ## Free-form values -/

/-- The entry with its value as it is read. -/
def Entry.canonical? (e : Entry) : Option Entry := do
  let value ← e.value.canonical?
  return { e with value }

/-- The content with its free-form values as they are read. -/
def Content.canonical? (c : Content) : Option Content := do
  let value ← c.value.canonical?
  let entries ← c.entries.mapM (List.mapM Entry.canonical?)
  return { value, entries }

/-- The captured value with its free-form values as they are read. -/
def Capture.canonical? (c : Capture) : Option Capture := do
  let content ← c.content.canonical?
  return { c with content }

/-- The captured values with their free-form values as they are read. -/
def Extent.canonical? (e : Extent) : Option Extent := do
  let captures ← e.captures.mapM Capture.canonical?
  return { e with captures }

/-- **The snapshot with its free-form values as they are read**, when none of them is refused. -/
def Snapshot.canonical? (s : Snapshot) : Option Snapshot := do
  let extents ← s.extents.mapM Extent.canonical?
  return { extents }

/-- The free-form values of a content. -/
def Content.values (c : Content) : List Json :=
  c.value :: (c.entries.getD []).map (·.value)

/-- The free-form values of a snapshot. -/
def Snapshot.values (s : Snapshot) : List Json :=
  s.extents.flatMap fun e => e.captures.flatMap fun c => c.content.values

theorem mapM_eq_some_self_iff {f : α → Option α} {xs : List α} :
    xs.mapM f = some xs ↔ ∀ x ∈ xs, f x = some x := by
  induction xs with
  | nil => simp
  | cons x xs ih =>
    rw [List.mapM_cons, List.forall_mem_cons, ← ih]
    cases f x <;> cases xs.mapM f <;> simp

theorem Entry.canonical?_eq_some_iff (e : Entry) : e.canonical? = some e ↔ e.value.Kept := by
  rw [← Json.canonical?_eq_some_iff, canonical?]
  cases h : e.value.canonical? with
  | none => simp
  | some value =>
    obtain ⟨key, value'⟩ := e
    simp

theorem Content.canonical?_eq_some_iff (c : Content) :
    c.canonical? = some c ↔ ∀ v ∈ c.values, v.Kept := by
  obtain ⟨value, entries⟩ := c
  have hentries : entries.mapM (List.mapM Entry.canonical?) = some entries ↔
      ∀ e ∈ entries.getD [], e.value.Kept := by
    cases entries with
    | none => simp
    | some es =>
      rw [Option.getD_some, ← forall₂_congr fun e (_ : e ∈ es) => e.canonical?_eq_some_iff,
        ← mapM_eq_some_self_iff]
      cases h : es.mapM Entry.canonical? <;> simp [h]
  rw [values, List.forall_mem_cons, List.forall_mem_map, ← hentries, canonical?,
    ← Json.canonical?_eq_some_iff]
  dsimp only
  cases value.canonical? <;> cases entries.mapM (List.mapM Entry.canonical?) <;> simp

theorem Capture.canonical?_eq_some_iff (c : Capture) :
    c.canonical? = some c ↔ ∀ v ∈ c.content.values, v.Kept := by
  rw [← c.content.canonical?_eq_some_iff, canonical?]
  obtain ⟨_, _, _, _, content⟩ := c
  dsimp only
  cases content.canonical? <;> simp

theorem Extent.canonical?_eq_some_iff (e : Extent) :
    e.canonical? = some e ↔ ∀ c ∈ e.captures, ∀ v ∈ c.content.values, v.Kept := by
  rw [← forall₂_congr fun c (_ : c ∈ e.captures) => c.canonical?_eq_some_iff,
    ← mapM_eq_some_self_iff, canonical?]
  obtain ⟨_, _, captures, _, _⟩ := e
  dsimp only
  cases captures.mapM Capture.canonical? <;> simp

/-- **A snapshot is read as it is when its free-form values are kept.** -/
theorem Snapshot.canonical?_eq_some_iff (s : Snapshot) :
    s.canonical? = some s ↔ ∀ v ∈ s.values, v.Kept := by
  have hvalues : (∀ v ∈ s.values, v.Kept) ↔
      ∀ e ∈ s.extents, ∀ c ∈ e.captures, ∀ v ∈ c.content.values, v.Kept := by
    simp only [values, List.mem_flatMap]
    exact ⟨fun h e he c hc v hv => h v ⟨e, he, c, hc, hv⟩,
      fun h v ⟨e, he, c, hc, hv⟩ => h e he c hc v hv⟩
  rw [hvalues, ← forall₂_congr fun e (_ : e ∈ s.extents) => e.canonical?_eq_some_iff,
    ← mapM_eq_some_self_iff, canonical?]
  obtain ⟨extents⟩ := s
  dsimp only
  cases extents.mapM Extent.canonical? <;> simp

/-! ## What is decoded -/

theorem Entry.valueOfJson?_of {j v : Json} (h : j.IsRecord Entry.ValueFields v) :
    Entry.valueOfJson? j = v.canonical? := by
  obtain ⟨members, rfl, hvalue⟩ := h
  refine DefaultField.decode_eq hvalue ?_ fun v h => by rw [h]
  rintro rfl
  rfl

theorem Entry.ofJson?_of {j : Json} {e : Entry} (h : j.IsRecord Entry.Fields e) :
    Entry.ofJson? j = e.canonical? := by
  obtain ⟨members, rfl, h⟩ := h
  have hkey := h.key.decode_eq fun _ => Json.asString?_of
  have hvalue := h.value.decode_eq fun _ => Entry.valueOfJson?_of
  simp only [Entry.ofJson?, Json.record?, List.map_cons, List.map_nil, Option.bind_some, hkey,
    hvalue]
  rfl

theorem Content.ofJson?_of {j : Json} {c : Content} (h : j.IsRecord Content.Fields c) :
    Content.ofJson? j = c.canonical? := by
  obtain ⟨members, rfl, h⟩ := h
  have hvalue : orDefault? .null Json.canonical? (members.lookup "value") = c.value.canonical? := by
    refine h.value.decode_eq (fun h => ?_) fun v h => by rw [h]
    rw [h]
    rfl
  have hentries : optional? (Json.asList? Entry.ofJson?) (members.lookup "entry") =
      c.entries.mapM (List.mapM Entry.canonical?) := by
    refine h.entries.decode_eq ?_ fun v es h => Json.asList?_of h fun _ _ => Entry.ofJson?_of
    rintro es ⟨items, h, -⟩
    cases h
  simp only [Content.ofJson?, Json.record?, List.map_cons, List.map_nil, Option.bind_some, hvalue,
    hentries]
  rfl

theorem Capture.ofJson?_of {j : Json} {c : Capture} (h : j.IsRecord Capture.Fields c) :
    Capture.ofJson? j = c.canonical? := by
  obtain ⟨members, rfl, h⟩ := h
  have haddress := h.address.decode_eq fun _ => Json.asString?_of
  have hstatic : optional? Json.asBool? (members.lookup "isStatic") = some c.isStatic := by
    rw [h.isStatic.decode_eq (f := some) (fun _ h => by cases h) fun _ _ => Json.asBool?_of]
    cases c.isStatic <;> rfl
  have hsize := h.size.decode_eq (congrArg some) fun _ => Json.asCount?_of
  have hsymbols : optional? (Json.asList? Json.asString?) (members.lookup "symbols") =
      some c.symbols := by
    rw [h.symbols.decode_eq (f := List.mapM some) (fun _ ⟨_, h, _⟩ => by cases h)
      fun _ _ h => Json.asList?_of h fun _ _ => Json.asString?_of]
    cases c.symbols with
    | none => rfl
    | some symbols => exact congrArg (Option.map some) (mapM_eq_some_self_iff.2 fun _ _ => rfl)
  have hcontent : orDefault? {} Content.ofJson? (members.lookup "value") =
      c.content.canonical? := by
    refine h.content.decode_eq (fun h => ?_) fun _ => Content.ofJson?_of
    rw [h]
    rfl
  simp only [Capture.ofJson?, Json.record?, List.map_cons, List.map_nil, Option.bind_some,
    haddress, hstatic, hsize, hsymbols, hcontent]
  rfl

theorem Extent.ofJson?_of {j : Json} {e : Extent} (h : j.IsRecord Extent.Fields e) :
    Extent.ofJson? j = e.canonical? := by
  obtain ⟨members, rfl, h⟩ := h
  have hcollection : optional? Json.asString? (members.lookup "collectionType") =
      some e.collectionType := by
    rw [h.collectionType.decode_eq (f := some) (fun _ h => by cases h) fun _ _ => Json.asString?_of]
    cases e.collectionType <;> rfl
  have hcount := h.count.decode_eq (congrArg some) fun _ => Json.asCount?_of
  have hcaptures : orDefault? [] (Json.asList? Capture.ofJson?) (members.lookup "extent") =
      e.captures.mapM Capture.canonical? := by
    refine h.captures.decode_eq (fun h => ?_) fun _ h => Json.asList?_of h fun _ _ =>
      Capture.ofJson?_of
    rw [h]
    rfl
  have htotal := h.totalSize.decode_eq (congrArg some) fun _ => Json.asCount?_of
  have htype := h.typeName.decode_eq fun _ => Json.asString?_of
  simp only [Extent.ofJson?, Json.record?, List.map_cons, List.map_nil, Option.bind_some,
    hcollection, hcount, hcaptures, htotal, htype]
  rfl

/-- **A written snapshot is decoded** with its free-form values as they are read. -/
theorem Snapshot.ofBareJson?_of {j : Json} {s : Snapshot} (h : j.IsRecord Snapshot.Fields s) :
    Snapshot.ofBareJson? j = s.canonical? := by
  obtain ⟨members, rfl, h⟩ := h
  have hextents : orDefault? [] (Json.asList? Extent.ofJson?) (members.lookup "extents") =
      s.extents.mapM Extent.canonical? := by
    refine h.extents.decode_eq (fun h => ?_) fun _ h => Json.asList?_of h fun _ _ =>
      Extent.ofJson?_of
    rw [h]
    rfl
  simp only [Snapshot.ofBareJson?, Json.record?, List.map_cons, List.map_nil, Option.bind_some,
    hextents]
  cases h : s.extents.mapM Extent.canonical? <;> simp [Snapshot.canonical?, h]

/-! ## What is not decoded -/

/-- An entry without its key or without its value. -/
inductive Entry.Flawed : Json → Prop
  | key {members : List (String × Json)} (h : members.lookup "keyDisplayValue" = none) :
      Flawed (.object members)
  | value {members : List (String × Json)} (h : members.lookup "value" = none) :
      Flawed (.object members)

/-- A content with such an entry. -/
inductive Content.Flawed : Json → Prop
  | entry {members : List (String × Json)} {items : List Json} {v : Json}
      (h : members.lookup "entry" = some (.array items)) (hv : v ∈ items) (flawed : Entry.Flawed v) :
      Flawed (.object members)

/-- A captured value without its address, with null for its size or its content, or with such a
content. -/
inductive Capture.Flawed : Json → Prop
  | address {members : List (String × Json)} (h : members.lookup "address" = none) :
      Flawed (.object members)
  | size {members : List (String × Json)} (h : members.lookup "size" = some .null) :
      Flawed (.object members)
  | value {members : List (String × Json)} (h : members.lookup "value" = some .null) :
      Flawed (.object members)
  | content {members : List (String × Json)} {v : Json} (h : members.lookup "value" = some v)
      (flawed : Content.Flawed v) : Flawed (.object members)

/-- Captured values without their type, with null for a number or for the list of them, or with such
a captured value. -/
inductive Extent.Flawed : Json → Prop
  | typeName {members : List (String × Json)} (h : members.lookup "typeName" = none) :
      Flawed (.object members)
  | count {members : List (String × Json)} (h : members.lookup "count" = some .null) :
      Flawed (.object members)
  | totalSize {members : List (String × Json)} (h : members.lookup "totalSize" = some .null) :
      Flawed (.object members)
  | extent {members : List (String × Json)} (h : members.lookup "extent" = some .null) :
      Flawed (.object members)
  | capture {members : List (String × Json)} {items : List Json} {v : Json}
      (h : members.lookup "extent" = some (.array items)) (hv : v ∈ items)
      (flawed : Capture.Flawed v) : Flawed (.object members)

/-- A snapshot with null for the list of types, or with such a type. -/
inductive Snapshot.Flawed : Json → Prop
  | null {members : List (String × Json)} (h : members.lookup "extents" = some .null) :
      Flawed (.object members)
  | extent {members : List (String × Json)} {items : List Json} {v : Json}
      (h : members.lookup "extents" = some (.array items)) (hv : v ∈ items)
      (flawed : Extent.Flawed v) : Flawed (.object members)

theorem Json.asList?_eq_none {decode : Json → Option β} {items : List Json} {v : Json}
    (hv : v ∈ items) (hdecode : decode v = none) : (Json.array items).asList? decode = none := by
  show items.mapM decode = none
  induction items with
  | nil => cases hv
  | cons w items ih =>
    rw [List.mapM_cons]
    rcases List.mem_cons.1 hv with rfl | hv
    · rw [hdecode]
      rfl
    · rw [ih hv]
      cases decode w <;> rfl

theorem Entry.ofJson?_eq_none {j : Json} (h : Entry.Flawed j) : Entry.ofJson? j = none := by
  cases h with
  | key h => simp [Entry.ofJson?, Json.record?, required?, h]
  | value h => simp [Entry.ofJson?, Json.record?, required?, h]

theorem Content.ofJson?_eq_none {j : Json} (h : Content.Flawed j) : Content.ofJson? j = none := by
  cases h with
  | entry h hv flawed =>
    have hentries := Json.asList?_eq_none hv (Entry.ofJson?_eq_none flawed)
    simp [Content.ofJson?, Json.record?, optional?, h, hentries]

theorem Capture.ofJson?_eq_none {j : Json} (h : Capture.Flawed j) : Capture.ofJson? j = none := by
  cases h with
  | address h => simp [Capture.ofJson?, Json.record?, required?, h]
  | size h => simp [Capture.ofJson?, Json.record?, orDefault?, h, Json.asCount?]
  | value h =>
    have hnull : Content.ofJson? .null = none := rfl
    simp [Capture.ofJson?, Json.record?, orDefault?, h, hnull]
  | content h flawed =>
    have hcontent := Content.ofJson?_eq_none flawed
    simp [Capture.ofJson?, Json.record?, orDefault?, h, hcontent]

theorem Extent.ofJson?_eq_none {j : Json} (h : Extent.Flawed j) : Extent.ofJson? j = none := by
  cases h with
  | typeName h => simp [Extent.ofJson?, Json.record?, required?, h]
  | count h => simp [Extent.ofJson?, Json.record?, orDefault?, h, Json.asCount?]
  | totalSize h => simp [Extent.ofJson?, Json.record?, orDefault?, h, Json.asCount?]
  | extent h => simp [Extent.ofJson?, Json.record?, orDefault?, h, Json.asList?]
  | capture h hv flawed =>
    have hcaptures := Json.asList?_eq_none hv (Capture.ofJson?_eq_none flawed)
    simp [Extent.ofJson?, Json.record?, orDefault?, h, hcaptures]

/-- **A snapshot with a flaw at any level is not decoded.** -/
theorem Snapshot.ofBareJson?_eq_none {j : Json} (h : Snapshot.Flawed j) :
    Snapshot.ofBareJson? j = none := by
  cases h with
  | null h => simp [Snapshot.ofBareJson?, Json.record?, orDefault?, h, Json.asList?]
  | extent h hv flawed =>
    have hextents := Json.asList?_eq_none hv (Extent.ofJson?_eq_none flawed)
    simp [Snapshot.ofBareJson?, Json.record?, orDefault?, h, hextents]

/-! ## Encoded snapshots -/

/-- The numbers of the snapshot are counts. -/
def Snapshot.Counted (s : Snapshot) : Prop :=
  ∀ e ∈ s.extents, e.count ≤ Text.maxCount ∧ e.totalSize ≤ Text.maxCount ∧
    ∀ c ∈ e.captures, c.size ≤ Text.maxCount

theorem Json.isList_map {written : Json → α → Prop} {encode : α → Json} {as : List α}
    (h : ∀ a ∈ as, written (encode a) a) : (Json.array (as.map encode)).IsList written as :=
  ⟨_, rfl, List.forall₂_map_left_iff.2 (List.forall₂_same.2 h)⟩

theorem OptionalField.of_ofOption {written : Json → α → Prop} {encode : α → Json}
    (h : ∀ a, written (encode a) a) (a : Option α) :
    OptionalField written (some (.ofOption encode a)) a := by
  cases a with
  | none => exact .null
  | some a => exact .here (h a)

theorem Entry.isRecord_toJson (e : Entry) : e.toJson.IsRecord Entry.Fields e :=
  ⟨_, rfl, ⟨.here rfl, .here ⟨_, rfl, .here rfl⟩⟩⟩

theorem Content.isRecord_toJson (c : Content) : c.toJson.IsRecord Content.Fields c :=
  ⟨_, rfl, ⟨.here rfl,
    .of_ofOption (fun _ => Json.isList_map fun e _ => e.isRecord_toJson) c.entries⟩⟩

theorem Capture.isRecord_toJson {c : Capture} (h : c.size ≤ Text.maxCount) :
    c.toJson.IsRecord Capture.Fields c := by
  have hstatic : ∀ b, (Json.bool b).IsBool b := fun _ => rfl
  have hsymbols : ∀ symbols : List String, (Json.array (symbols.map .string)).IsList Json.IsString
      symbols := fun _ => Json.isList_map fun _ _ => rfl
  exact ⟨_, rfl, ⟨.here rfl, .of_ofOption hstatic c.isStatic, .here ⟨rfl, h⟩,
    .of_ofOption hsymbols c.symbols, .here c.content.isRecord_toJson⟩⟩

theorem Extent.isRecord_toJson {e : Extent} (hcount : e.count ≤ Text.maxCount)
    (htotal : e.totalSize ≤ Text.maxCount) (hsizes : ∀ c ∈ e.captures, c.size ≤ Text.maxCount) :
    e.toJson.IsRecord Extent.Fields e := by
  have htype : ∀ t, (Json.string t).IsString t := fun _ => rfl
  exact ⟨_, rfl, ⟨.of_ofOption htype e.collectionType, .here ⟨rfl, hcount⟩,
    .here (Json.isList_map fun c hc => Capture.isRecord_toJson (hsizes c hc)),
    .here ⟨rfl, htotal⟩, .here rfl⟩⟩

/-- **An encoded snapshot is written with its fields**, so it is decoded to what it was but for the
spelling of free-form values. -/
theorem Snapshot.isRecord_toJson {s : Snapshot} (h : s.Counted) :
    s.toJson.IsRecord Snapshot.Fields s :=
  ⟨_, rfl, ⟨.here (Json.isList_map fun e he =>
    Extent.isRecord_toJson (h e he).1 (h e he).2.1 (h e he).2.2)⟩⟩

/-! ## Bare or in an envelope -/

/-- The value in which a snapshot is looked for: what the envelope holds, or the whole value when it
is no envelope. -/
def Json.Presents (j inner : Json) : Prop :=
  j.get? "HeapDump" = some inner ∨ j.get? "HeapDump" = none ∧ j = inner

/-- **Decoding is complete, and lenient only where it is meant to be.** A snapshot that is written
with its fields under their names, in any order and with any others between them, is decoded bare or
in its envelope: to itself exactly when its free-form values are spelled as they are read, and else
with these values as they are read, or not at all when one of them is refused. Nothing is decoded
when at any level a part is missing that makes up the record, or null stands for a number, a list or
a content. -/
theorem Snapshot.ofJson?_of_presents {j inner : Json} (presents : j.Presents inner) :
    (∀ s : Snapshot, inner.IsRecord Snapshot.Fields s →
      ofJson? j = s.canonical? ∧ (ofJson? j = some s ↔ ∀ v ∈ s.values, v.Kept)) ∧
    (Snapshot.Flawed inner → ofJson? j = none) := by
  have hinner : ofJson? j = ofBareJson? inner := by
    rcases presents with h | ⟨h, rfl⟩
    · rw [ofJson?, h]
      rfl
    · rw [ofJson?, h]
      rfl
  rw [hinner]
  refine ⟨fun s hs => ?_, ofBareJson?_eq_none⟩
  rw [ofBareJson?_of hs]
  exact ⟨rfl, s.canonical?_eq_some_iff⟩

/-- An object with a number and with an entry. -/
def numberSnapshot (text : String) : Snapshot where
  extents :=
    [{ typeName := "Double"
       captures :=
        [{ address := "0x1"
           symbols := some ["x"]
           content :=
            { value := .number text
              entries := some [{ key := "k", value := .string "0x2" }] } }] }]

/-- The snapshot of the object as it may be written, with some of the fields of its type. -/
def numberJson (text : String) (fields : List (String × Json)) : Json :=
  .object [("extents", .array [.object <|
    ("extent", .array [.object
      [("value", .object
          [("entry", .array [.object
            [("value", .object [("value", .string "0x2")]), ("keyDisplayValue", .string "k")]]),
          ("value", .number text)]),
        ("symbols", .array [.string "x"]), ("address", .string "0x1")]]) ::
    ("definition", .array []) :: fields])]

theorem isRecord_numberJson (text : String) :
    (numberJson text [("typeName", .string "Double")]).IsRecord Snapshot.Fields
      (numberSnapshot text) := by
  have hentry : Entry.Fields
      [("value", .object [("value", .string "0x2")]), ("keyDisplayValue", .string "k")]
      { key := "k", value := .string "0x2" } :=
    ⟨.here rfl, .here ⟨_, rfl, .here rfl⟩⟩
  refine ⟨_, rfl, ⟨.here ⟨_, rfl, .cons ⟨_, rfl, ?_⟩ .nil⟩⟩⟩
  refine ⟨.leftOut, .leftOut, .here ⟨_, rfl, .cons ⟨_, rfl, ?_⟩ .nil⟩, .leftOut, .here rfl⟩
  refine ⟨.here rfl, .leftOut, .leftOut, .here ⟨_, rfl, .cons rfl .nil⟩, .here ⟨_, rfl, ?_⟩⟩
  exact ⟨.here rfl, .here ⟨_, rfl, .cons ⟨_, rfl, hentry⟩ .nil⟩⟩

/-- In an envelope a snapshot with a whole number is decoded to itself, and without its type to
nothing. -/
theorem Snapshot.ofJson?_numberJson :
    let written := numberJson "12" [("typeName", .string "Double")]
    let untyped := numberJson "12" []
    (Json.object [("HeapDump", written)]).Presents written ∧
    ofJson? (.object [("HeapDump", written)]) = some (numberSnapshot "12") ∧
    (Json.object [("HeapDump", untyped)]).Presents untyped ∧
    ofJson? (.object [("HeapDump", untyped)]) = none := by
  intro written untyped
  have presents : ∀ j : Json, (Json.object [("HeapDump", j)]).Presents j := fun j => .inl rfl
  obtain ⟨hdecoded, -⟩ := Snapshot.ofJson?_of_presents (presents written)
  obtain ⟨-, hflawed⟩ := Snapshot.ofJson?_of_presents (presents untyped)
  have hkept : ∀ v ∈ (numberSnapshot "12").values, v.Kept := by
    have hnumber : (Json.number "12").Kept := Json.kept_ofNat (n := 12) (by decide)
    intro v hv
    obtain rfl | rfl : v = .number "12" ∨ v = .string "0x2" := by
      simpa [numberSnapshot, values, Content.values] using hv
    · exact hnumber
    · exact .string _
  exact ⟨presents _, (hdecoded _ (isRecord_numberJson "12")).2.2 hkept, presents _,
    hflawed (.extent rfl List.mem_cons_self (.typeName rfl))⟩

/-- A number may be written in a spelling that is not kept. -/
theorem Snapshot.not_ofJson?_numberJson :
    ¬ ∀ (j : Json) (s : Snapshot), j.IsRecord Snapshot.Fields s → j.get? "HeapDump" = none →
      ofJson? j = some s := by
  intro h
  have hdecoded := h _ _ (isRecord_numberJson "0.000009") rfl
  have hbare : ofJson? (numberJson "0.000009" [("typeName", .string "Double")]) =
      (numberSnapshot "0.000009").canonical? := ofBareJson?_of (isRecord_numberJson "0.000009")
  rw [hbare, canonical?_eq_some_iff] at hdecoded
  cases hdecoded (.number "0.000009") List.mem_cons_self with
  | number spelled => exact absurd spelled (by decide +kernel)

end Retrace
