/-!
# Assigned values

The log writes an assigned value much like JSON, but loosely: tokens such as `BLOB(5 bytes)` stand
without quotes, and an object that is too long is cut off.

* `Literal`: the values. Lists are kept as text, objects field by field.
* `Literal.key?`: the text by which a value may refer to a known object.
* `Literal.display`: how a value that is no object is shown.
-/

namespace Retrace

/-- A value as the log writes it. -/
inductive Literal
  /-- A string, without its quotes. -/
  | quoted (text : String)
  /-- A token without quotes. -/
  | bare (text : String)
  /-- An object with its fields in order. -/
  | object (fields : List (String × Literal))
  /-- A list or a set, as written. -/
  | array (text : String)
  deriving Inhabited

namespace Literal

/-- Whether this is the object without fields. -/
def isEmptyObject : Literal → Bool
  | .object [] => true
  | _ => false

/-- The text by which the value may refer to a known object: that of a string or a token. -/
def key? : Literal → Option String
  | .quoted text | .bare text => some text
  | .object _ | .array _ => none

/-- A string stands between single quotes, tokens and lists stand as written. -/
def display : Literal → String
  | .quoted text => "'" ++ text ++ "'"
  | .bare text | .array text => text
  | .object _ => ""

end Literal

end Retrace
