/-!
# JSON values

The values of JSON texts. Numbers keep the text they were written with, so that no digit is lost.

* `Json`: the values.
* `Json.ofMembers`: an object from its members as they are written.
* `Json.get?`, `Json.text`: the member of an object, and a value as shown to the user.
* `Json.compact`: a value as JSON text without blanks.
-/

namespace Retrace

/-- A JSON value. The members of an object are kept in the order of their names. -/
inductive Json
  | null
  | bool (b : Bool)
  | number (text : String)
  | string (text : String)
  | array (items : List Json)
  | object (members : List (String × Json))
  deriving Inhabited

namespace Json

/-- Puts a member where its name belongs; an earlier member of the name is dropped. -/
def putMember (name : String) (v : Json) : List (String × Json) → List (String × Json)
  | [] => [(name, v)]
  | (name', v') :: rest =>
    if name = name' then (name, v) :: rest
    else if name < name' then (name, v) :: (name', v') :: rest
    else (name', v') :: putMember name v rest

/-- The object with the given members. They are put in the order of their names, and of several
members of one name the last counts. -/
def ofMembers (members : List (String × Json)) : Json :=
  .object (members.foldl (fun sorted (name, v) => putMember name v sorted) [])

/-- The member of an object. -/
def get? (name : String) : Json → Option Json
  | .object members => members.lookup name
  | _ => none

/-! ## Printing -/

/-- A hexadecimal digit. -/
def hexDigit (n : Nat) : Char :=
  Char.ofNat (if n < 10 then '0'.toNat + n else 'a'.toNat + (n - 10))

/-- A character inside a string: quotes, backslashes and control characters are escaped. -/
def escapeChar (c : Char) : List Char :=
  match c with
  | '"' => ['\\', '"']
  | '\\' => ['\\', '\\']
  | '\n' => ['\\', 'n']
  | '\r' => ['\\', 'r']
  | '\t' => ['\\', 't']
  | '\x08' => ['\\', 'b']
  | '\x0c' => ['\\', 'f']
  | c =>
    if c.toNat < 0x20 then ['\\', 'u', '0', '0', hexDigit (c.toNat / 16), hexDigit (c.toNat % 16)]
    else [c]

/-- A string in quotes. -/
def quote (s : String) : String :=
  String.ofList ('"' :: s.toList.flatMap escapeChar ++ ['"'])

mutual

/-- A value as JSON text without blanks. -/
def compact : Json → String
  | .null => "null"
  | .bool b => if b then "true" else "false"
  | .number text => text
  | .string text => quote text
  | .array items => "[" ++ ",".intercalate (compactItems items) ++ "]"
  | .object members => "\x7b" ++ ",".intercalate (compactMembers members) ++ "\x7d"

/-- The items of an array as JSON texts. -/
def compactItems : List Json → List String
  | [] => []
  | v :: items => v.compact :: compactItems items

/-- The members of an object as JSON texts. -/
def compactMembers : List (String × Json) → List String
  | [] => []
  | (name, v) :: members => (quote name ++ ":" ++ v.compact) :: compactMembers members

end

/-- A value as shown to the user: a string stands as it is, anything else as JSON text. -/
def text : Json → String
  | .string s => s
  | v => v.compact

/-- The text of a value when it is a string. -/
def asString? : Json → Option String
  | .string s => some s
  | _ => none

end Json

end Retrace
