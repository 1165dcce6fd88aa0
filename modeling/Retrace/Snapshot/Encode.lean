import Retrace.Checkpoint

/-!
# Encoding snapshots

* `Snapshot.toJson`, `Checkpoint.toJson`: snapshots and checkpoints as JSON values, with the fields
  of each level in a fixed order.
-/

namespace Retrace

/-- A value, or null when there is none. -/
def Json.ofOption {α : Type} (encode : α → Json) : Option α → Json
  | none => .null
  | some a => encode a

/-- A count. -/
def Json.ofNat (n : Nat) : Json :=
  .number (toString n)

/-- An entry. -/
def Entry.toJson (e : Entry) : Json :=
  .object [("keyDisplayValue", .string e.key), ("value", .object [("value", e.value)])]

/-- The content of a captured value. -/
def Content.toJson (c : Content) : Json :=
  .object
    [("value", c.value), ("entry", .ofOption (fun es => .array (es.map Entry.toJson)) c.entries)]

/-- A captured value. -/
def Capture.toJson (c : Capture) : Json :=
  .object
    [("address", .string c.address), ("isStatic", .ofOption .bool c.isStatic),
      ("size", .ofNat c.size),
      ("symbols", .ofOption (fun symbols => .array (symbols.map .string)) c.symbols),
      ("value", c.content.toJson)]

/-- The captured values of one type. -/
def Extent.toJson (e : Extent) : Json :=
  .object
    [("collectionType", .ofOption .string e.collectionType), ("count", .ofNat e.count),
      ("extent", .array (e.captures.map Capture.toJson)), ("totalSize", .ofNat e.totalSize),
      ("typeName", .string e.typeName)]

/-- A snapshot. -/
def Snapshot.toJson (s : Snapshot) : Json :=
  .object [("extents", .array (s.extents.map Extent.toJson))]

/-- A checkpoint. -/
def Checkpoint.toJson (c : Checkpoint) : Json :=
  .object
    [("id", .string c.id), ("class_name", .string c.className),
      ("namespace", .string c.namespaceName), ("line", .ofNat c.line),
      ("payload", .ofOption Snapshot.toJson c.snapshot)]

end Retrace
