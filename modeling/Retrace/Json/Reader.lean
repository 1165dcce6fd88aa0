import Retrace.Json.Token

/-!
# Reading JSON texts

The arrays and objects around the place of reading are kept in a list, innermost first, so reading
is one pass over the tokens. An object that begins with `numberName` is read as a number.

* `Json.readValue`, `Json.resume`: the pass, where a value stands and behind one.
* `Json.parse?`: reads a whole text.
-/

namespace Retrace.Json

/-- How deep arrays and objects may be nested. -/
def maxDepth : Nat := 127

/-- An array or object whose end has not been read yet. -/
inductive Enclosing
  /-- An array with its items so far, the last one first. -/
  | array (items : List Json)
  /-- An object with its members so far, the last one first, and the name of the next one. -/
  | object (members : List (String × Json)) (name : String)

mutual

/-- Reads on where a value stands. -/
def readValue (outer : List Enclosing) : List Token → Option Json
  | .scalar v :: ts => resume outer v ts
  | .openArray :: .closeArray :: ts =>
    if outer.length < maxDepth then resume outer (.array []) ts else none
  | .openArray :: ts =>
    if outer.length < maxDepth then readValue (.array [] :: outer) ts else none
  | .openObject :: .closeObject :: ts =>
    if outer.length < maxDepth then resume outer (.object []) ts else none
  | .openObject :: .scalar (.string name) :: .colon :: ts =>
    if outer.length < maxDepth then
      if name = numberName then
        match ts with
        | .scalar (.string text) :: .closeObject :: ts =>
          match ofNumberText? text with
          | some v => resume outer v ts
          | none => none
        | _ => none
      else readValue (.object [] name :: outer) ts
    else none
  | _ => none

/-- Reads on behind a value. -/
def resume (outer : List Enclosing) (v : Json) : List Token → Option Json
  | [] => if outer.isEmpty then some v else none
  | .comma :: .scalar (.string name) :: .colon :: ts =>
    match outer with
    | .object members name' :: outer => readValue (.object ((name', v) :: members) name :: outer) ts
    | _ => none
  | .comma :: ts =>
    match outer with
    | .array items :: outer => readValue (.array (v :: items) :: outer) ts
    | _ => none
  | .closeArray :: ts =>
    match outer with
    | .array items :: outer => resume outer (.array (v :: items).reverse) ts
    | _ => none
  | .closeObject :: ts =>
    match outer with
    | .object members name :: outer => resume outer (ofMembers ((name, v) :: members).reverse) ts
    | _ => none
  | _ => none

end

/-- Reads a JSON text. -/
def parse? (s : String) : Option Json :=
  (tokens s.toList).bind (readValue [])

end Retrace.Json
