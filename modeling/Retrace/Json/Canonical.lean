import Retrace.Decimal.Double
import Retrace.Json.Token

/-!
# Numbers in free-form values

Where a value may be of any kind, its numbers are kept as they are written, with two exceptions:
minus zero is zero, and a number of double precision in its plain spelling is spelled according to
its size.

* `Json.canonicalNumber`: the spelling of a number.
* `Json.canonical?`: a value with its numbers spelled so.
-/

namespace Retrace.Json

/-- The spelling of a number of double precision by its size, where the digits are its plain
spelling. Of two equally near decimals with the fewest digits the plain spelling has the larger one
and the result the even one. -/
def doubleText? (whole fraction digits : List Char) : Option (List Char) := do
  let x ← Double.nearest? (.ofDigits whole fraction)
  let written ← x.shortest? .up
  let shortest ← x.shortest? .toEven
  if written.plain = digits then some shortest.text else none

/-- The spelling of a number without its sign. Whole numbers below the limit and numbers with an
exponent stay as they are. -/
def canonicalDigits (limit : Nat) (digits : List Char) : List Char :=
  let whole := digits.takeWhile Char.isDigit
  match digits.dropWhile Char.isDigit with
  | [] =>
    if (Decimal.ofDigits whole []).digits < limit then digits
    else (doubleText? whole [] digits).getD digits
  | '.' :: fraction =>
    if fraction.all Char.isDigit then (doubleText? whole fraction digits).getD digits else digits
  | _ => digits

/-- The spelling of a number. Whole numbers of 128 bits stay as they are: those from minus the 127th
power of two on, and those below the 128th. -/
def canonicalNumber (text : String) : String :=
  match text.toList with
  | ['-', '0'] => "0"
  | '-' :: digits =>
    String.ofList ('-' :: canonicalDigits 0x80000000000000000000000000000001 digits)
  | digits => String.ofList (canonicalDigits 0x100000000000000000000000000000000 digits)

mutual

/-- A value with its numbers in their spelling. An object whose first member in the order of names
is `numberName` is refused: it would be a number, but it has other members. -/
def canonical? : Json → Option Json
  | .null => some .null
  | .bool b => some (.bool b)
  | .number text => some (.number (canonicalNumber text))
  | .string text => some (.string text)
  | .array items => (canonicalItems? items).map .array
  | .object members =>
    if members.head?.any (·.1 = numberName) then none
    else (canonicalMembers? members).map .object

/-- The items of an array with their numbers in their spelling. -/
def canonicalItems? : List Json → Option (List Json)
  | [] => some []
  | v :: items => do
    let v ← v.canonical?
    let items ← canonicalItems? items
    return v :: items

/-- The members of an object with their numbers in their spelling. -/
def canonicalMembers? : List (String × Json) → Option (List (String × Json))
  | [] => some []
  | (name, v) :: members => do
    let v ← v.canonical?
    let members ← canonicalMembers? members
    return (name, v) :: members

end

end Retrace.Json
