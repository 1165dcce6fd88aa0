import Retrace.Json

/-!
# Indented JSON texts

* `Json.pretty`: a value as JSON text, with every item and member on a line of its own, two blanks
  further in than what is around it.
-/

namespace Retrace.Json

/-- Parts between brackets, each on a line of its own; no parts need no lines. -/
def block (opening closing : String) (depth : Nat) (parts : List String) : String :=
  let margin (n : Nat) := String.ofList ('\n' :: List.replicate (2 * n) ' ')
  if parts.isEmpty then opening ++ closing
  else
    opening ++ ",".intercalate (parts.map (margin (depth + 1) ++ ·)) ++ margin depth ++ closing

mutual

/-- A value as indented JSON text, `depth` levels further in. -/
def prettyAt (depth : Nat) : Json → String
  | .array items => block "[" "]" depth (prettyItems (depth + 1) items)
  | .object members => block "\x7b" "\x7d" depth (prettyMembers (depth + 1) members)
  | .null => compact .null
  | .bool b => compact (.bool b)
  | .number text => compact (.number text)
  | .string text => compact (.string text)

/-- The items of an array as indented JSON texts. -/
def prettyItems (depth : Nat) : List Json → List String
  | [] => []
  | v :: items => v.prettyAt depth :: prettyItems depth items

/-- The members of an object as indented JSON texts. -/
def prettyMembers (depth : Nat) : List (String × Json) → List String
  | [] => []
  | (name, v) :: members =>
    (quote name ++ ": " ++ v.prettyAt depth) :: prettyMembers depth members

end

/-- A value as indented JSON text. -/
def pretty (v : Json) : String :=
  v.prettyAt 0

end Retrace.Json
