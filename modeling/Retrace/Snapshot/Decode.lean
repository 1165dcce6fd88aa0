import Retrace.Json.Canonical
import Retrace.Json.Reader
import Retrace.Snapshot
import Retrace.Text.Count

/-!
# Decoding snapshots

A snapshot is fetched as JSON text. Each level is a record: an object with named fields, or an array
of the fields in their order. Unknown fields of an object do not count. Absent fields have defaults,
apart from those that make up the record. The values of entries and contents may be of any kind;
their numbers are brought to their canonical spelling.

* `Json.record?`: the fields of a record.
* `required?`, `orDefault?`, `optional?`: the three ways in which a field may be there.
* `Snapshot.ofJson?`, `Snapshot.parse?`: a whole snapshot, on its own or as the one field of an
  envelope.
-/

namespace Retrace

/-! ## Records -/

/-- The fields of a record with the given names, in their order. -/
def Json.record? (names : List String) : Json → Option (List (Option Json))
  | .object members => some (names.map (members.lookup ·))
  | .array items =>
    if items.length ≤ names.length then
      some (items.map some ++ List.replicate (names.length - items.length) none)
    else none
  | _ => none

/-- A field that has to be there. -/
def required? {α : Type} (decode : Json → Option α) (field : Option Json) : Option α :=
  field.bind decode

/-- A field with a default for when it is absent. -/
def orDefault? {α : Type} (default : α) (decode : Json → Option α) : Option Json → Option α
  | none => some default
  | some v => decode v

/-- A field that may be absent or null. -/
def optional? {α : Type} (decode : Json → Option α) : Option Json → Option (Option α)
  | none | some .null => some none
  | some v => (decode v).map some

/-- A truth value. -/
def Json.asBool? : Json → Option Bool
  | .bool b => some b
  | _ => none

/-- A count: a whole number below 2^64, written with digits only. -/
def Json.asCount? : Json → Option Nat
  | .number text => Text.readCount? text
  | _ => none

/-- An array of values of one kind. -/
def Json.asList? {α : Type} (decode : Json → Option α) : Json → Option (List α)
  | .array items => items.mapM decode
  | _ => none

/-! ## The levels of a snapshot -/

/-- The value of an entry: a record around it. -/
def Entry.valueOfJson? (v : Json) : Option Json :=
  (v.record? ["value"]).bind fun
    | [value] => orDefault? .null Json.canonical? value
    | _ => none

/-- An entry. -/
def Entry.ofJson? (v : Json) : Option Entry :=
  (v.record? ["keyDisplayValue", "value"]).bind fun
    | [key, value] => do
      let key ← required? Json.asString? key
      let value ← required? Entry.valueOfJson? value
      return { key, value }
    | _ => none

/-- The content of a captured value. -/
def Content.ofJson? (v : Json) : Option Content :=
  (v.record? ["value", "entry"]).bind fun
    | [value, entries] => do
      let value ← orDefault? .null Json.canonical? value
      let entries ← optional? (Json.asList? Entry.ofJson?) entries
      return { value, entries }
    | _ => none

/-- A captured value. -/
def Capture.ofJson? (v : Json) : Option Capture :=
  (v.record? ["address", "isStatic", "size", "symbols", "value"]).bind fun
    | [address, isStatic, size, symbols, content] => do
      let address ← required? Json.asString? address
      let isStatic ← optional? Json.asBool? isStatic
      let size ← orDefault? 0 Json.asCount? size
      let symbols ← optional? (Json.asList? Json.asString?) symbols
      let content ← orDefault? {} Content.ofJson? content
      return { address, isStatic, size, symbols, content }
    | _ => none

/-- The captured values of one type. -/
def Extent.ofJson? (v : Json) : Option Extent :=
  (v.record? ["collectionType", "count", "extent", "totalSize", "typeName"]).bind fun
    | [collectionType, count, captures, totalSize, typeName] => do
      let collectionType ← optional? Json.asString? collectionType
      let count ← orDefault? 0 Json.asCount? count
      let captures ← orDefault? [] (Json.asList? Capture.ofJson?) captures
      let totalSize ← orDefault? 0 Json.asCount? totalSize
      let typeName ← required? Json.asString? typeName
      return { collectionType, count, captures, totalSize, typeName }
    | _ => none

/-- A snapshot without an envelope. -/
def Snapshot.ofBareJson? (v : Json) : Option Snapshot :=
  (v.record? ["extents"]).bind fun
    | [extents] => (orDefault? [] (Json.asList? Extent.ofJson?) extents).map Snapshot.mk
    | _ => none

/-- A snapshot, bare or in its envelope. -/
def Snapshot.ofJson? (v : Json) : Option Snapshot :=
  Snapshot.ofBareJson? ((v.get? "HeapDump").getD v)

/-- Reads a snapshot. -/
def Snapshot.parse? (s : String) : Option Snapshot :=
  (Json.parse? s).bind Snapshot.ofJson?

end Retrace
