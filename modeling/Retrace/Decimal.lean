/-!
# Decimal numbers

A decimal number has whole digits and a power of ten. Its sign is written in front of it and is no
part of it.

* `Decimal`: the numbers `digits · 10 ^ exponent`.
* `Decimal.ofDigits`: the number that the digits before and behind a point write.
* `Decimal.plain`, `Decimal.scientific`: its text without and with an exponent.
* `Decimal.text`: the one of the two that its size calls for.
-/

namespace Retrace

/-- The number `digits · 10 ^ exponent`. -/
structure Decimal where
  digits : Nat
  exponent : Int
  deriving DecidableEq, Repr

namespace Decimal

/-- The number that the digits before and behind a point write. -/
def ofDigits (whole fraction : List Char) : Decimal where
  digits := (whole ++ fraction).foldl (fun n c => 10 * n + (c.toNat - '0'.toNat)) 0
  exponent := -fraction.length

/-- The digits of a number. -/
def chars (d : Decimal) : List Char :=
  Nat.toDigits 10 d.digits

/-- The power of ten of the first digit. -/
def leading (d : Decimal) : Int :=
  d.exponent + d.chars.length - 1

/-- The text without an exponent: zeros fill the places up to the point, and a point stands only
where digits follow it. -/
def plain (d : Decimal) : List Char :=
  if 0 ≤ d.exponent then d.chars ++ List.replicate d.exponent.toNat '0'
  else
    let digits := List.replicate (-d.leading).toNat '0' ++ d.chars
    let places := (-d.exponent).toNat
    digits.take (digits.length - places) ++ '.' :: digits.drop (digits.length - places)

/-- The text with an exponent: a point behind the first of several digits, and a sign before the
exponent. -/
def scientific (d : Decimal) : List Char :=
  let fraction := if d.chars.tail.isEmpty then [] else '.' :: d.chars.tail
  let sign := if d.leading < 0 then '-' else '+'
  d.chars.take 1 ++ fraction ++ 'e' :: sign :: Nat.toDigits 10 d.leading.natAbs

/-- The text of a number: numbers below 10 ^ -5 and from 10 ^ 16 on have an exponent. -/
def text (d : Decimal) : List Char :=
  if -5 ≤ d.leading ∧ d.leading < 16 then d.plain else d.scientific

end Decimal

end Retrace
