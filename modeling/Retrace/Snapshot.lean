import Retrace.Json

/-!
# Snapshots of the heap

A snapshot lists the values that were on the heap, grouped by type. Each value has an address, and
the variables that point at it are listed with it.

* `Snapshot`, `Extent`, `Capture`, `Content`, `Entry`: the levels of a snapshot.
* `Capture.firstSymbol?`, `Content.elements`: the parts that an overlay reads.
-/

namespace Retrace

/-- A field of an object, or an entry of a map. -/
structure Entry where
  /-- The name of the field, or the key of the entry, possibly an address. -/
  key : String
  /-- The value, possibly an address. -/
  value : Json := .null
  deriving Inhabited

/-- What a captured value consists of. -/
structure Content where
  /-- The value when it is a scalar, or the elements of a list or set. -/
  value : Json := .null
  /-- The fields of an object, or the entries of a map. -/
  entries : Option (List Entry) := none
  deriving Inhabited

/-- A captured value. -/
structure Capture where
  /-- Its address. -/
  address : String
  /-- Whether a static variable holds it. -/
  isStatic : Option Bool := none
  /-- Its size in bytes. -/
  size : Nat := 0
  /-- The variables that point at it. -/
  symbols : Option (List String) := none
  /-- The value itself. -/
  content : Content := {}
  deriving Inhabited

/-- The captured values of one type. -/
structure Extent where
  /-- The type of the elements, or of the values of a map. -/
  collectionType : Option String := none
  /-- How many values were captured. -/
  count : Nat := 0
  /-- The values. -/
  captures : List Capture := []
  /-- The size of all values in bytes. -/
  totalSize : Nat := 0
  /-- The type. -/
  typeName : String
  deriving Inhabited

/-- The captured values by type. -/
structure Snapshot where
  /-- The types. -/
  extents : List Extent := []
  deriving Inhabited

/-- The first variable that points at a value. -/
def Capture.firstSymbol? (c : Capture) : Option String :=
  c.symbols.bind (·.head?)

/-- The elements of a list or set; an item without a value counts as null. -/
def Content.elements (c : Content) : List Json :=
  match c.value with
  | .array items => items.map fun item => (item.get? "value").getD .null
  | _ => []

end Retrace
