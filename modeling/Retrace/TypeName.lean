import Retrace.Text.Cut

/-!
# Names of types

Types come as text, such as `Integer` or `Map<Id,Account>`, and are told apart by how the text
begins. Case does not matter. All compared words are ASCII, and no other letter has one of theirs as
its lower case, so folding the ASCII letters decides.

* `TypeName.isPrimitive`, `isString`, `isCollection`, `isListOrSet`.
* `TypeName.mapKey`: the type of the keys of a map.
* `isAddress`: the addresses of values on the heap.
-/

namespace Retrace

/-- Whether a text is the address of a value on the heap. -/
def isAddress (text : String) : Bool :=
  Text.startsWith text "0x"

namespace TypeName

/-- The types whose values are not objects, in lower case. -/
def primitives : List String :=
  ["blob", "boolean", "date", "datetime", "decimal", "double", "id", "integer", "long", "string",
   "time"]

/-- Whether values of the type are not objects. -/
def isPrimitive (type : String) : Bool :=
  Text.lower type ∈ primitives

/-- Whether the type is the type of strings. -/
def isString (type : String) : Bool :=
  Text.lower type = "string"

/-- Whether the type is the type of truth values. -/
def isBoolean (type : String) : Bool :=
  Text.lower type = "boolean"

/-- Whether the type is a list or a set. -/
def isListOrSet (type : String) : Bool :=
  let name := Text.lower type
  Text.startsWith name "list<" || Text.startsWith name "set<"

/-- Whether the type is a map, a list or a set. -/
def isCollection (type : String) : Bool :=
  Text.startsWith (Text.lower type) "map<" || isListOrSet type

/-- The type of the keys of a map type, given the type of its values: the text from behind the
first opening bracket to the last comma that the type of the values follows. Looking for the type
of the values from the end keeps the commas inside the type of the keys. A missing bracket or comma
leaves that end of the text where it is. -/
def mapKey (type valueType : String) : String :=
  let cs := type.toList
  let start := (Text.cutFirst '<' cs).elim 0 fun (before, _) => before.length + 1
  let upTo := (Text.beforeLastWord (',' :: valueType.toList) cs).getD cs
  String.ofList (upTo.drop start)

end TypeName

end Retrace
