import Retrace.Decimal

/-!
# Decimals of double precision

A number of double precision is `mantissa · 2 ^ exponent` with a mantissa of at most 53 bits. All
comparisons with decimals are made in whole numbers.

* `Double`: the positive numbers of double precision.
* `Double.nearest?`: the number that a decimal is read as.
* `Double.reads`: whether a decimal is read as a given number.
* `Double.shortest?`: the decimal with the fewest digits among those.
-/

namespace Retrace

/-- Where a value halfway between two whole numbers goes. -/
inductive Tie
  | toEven
  | up

/-- A quotient rounded to the nearest whole number. -/
def Tie.quotient (tie : Tie) (num den : Nat) : Nat :=
  match compare (2 * (num % den)) den, tie with
  | .lt, _ => num / den
  | .eq, .toEven => num / den + num / den % 2
  | .eq, .up | .gt, _ => num / den + 1

/-- The positive number `mantissa · 2 ^ exponent`. -/
structure Double where
  mantissa : Nat
  exponent : Int
  mantissa_bounds : 0 < mantissa ∧ mantissa < 0x20000000000000

namespace Double

/-- The least exponent. Numbers with this exponent may have fewer than 53 bits. -/
def leastExponent : Int := -1074

/-- The greatest exponent. -/
def greatestExponent : Int := 971

/-- The number `n · 2 ^ twos · 10 ^ tens` as a numerator and a denominator. -/
def ratio (n : Nat) (twos tens : Int) : Nat × Nat :=
  (n * Nat.pow 2 twos.toNat * Nat.pow 10 tens.toNat,
    Nat.pow 2 (-twos).toNat * Nat.pow 10 (-tens).toNat)

/-! ## From a decimal -/

/-- The number of the given exponent nearest to a decimal, if its mantissa has room. -/
def withExponent? (d : Decimal) (exponent : Int) : Option Double :=
  let (num, den) := ratio d.digits (-exponent) d.exponent
  let mantissa := Tie.toEven.quotient num den
  if h : 0 < mantissa ∧ mantissa < 0x20000000000000 then some ⟨mantissa, exponent, h⟩ else none

/-- The number nearest to a decimal; of two equally near ones it is that with the even mantissa.
There is none where zero is nearer, and none for a decimal that is too large. The finest exponent
with room counts; the lengths of numerator and denominator tell it up to two steps. -/
def nearest? (d : Decimal) : Option Double :=
  let (num, den) := ratio d.digits 0 d.exponent
  let finest := max ((num.log2 : Int) - den.log2 - 53) leastExponent
  ([finest, finest + 1, finest + 2].findSome? (withExponent? d)).filter
    (·.exponent ≤ greatestExponent)

/-! ## To a decimal -/

/-- Whether a decimal is read as the number: it lies no farther away than halfway to the next number
on its side. What is exactly halfway is read as the one with the even mantissa. The next number
below a power of two is half as far away as the next one above. -/
def reads (x : Double) (d : Decimal) : Bool :=
  let (num, den) := ratio d.digits (2 - x.exponent) d.exponent
  let narrow := x.mantissa = 0x10000000000000 ∧ leastExponent < x.exponent
  let low := (4 * x.mantissa - if narrow then 1 else 2) * den
  let high := (4 * x.mantissa + 2) * den
  if x.mantissa % 2 = 0 then low ≤ num && num ≤ high else low < num && num < high

/-- The decimal with the given exponent that is read as the number; the nearest one, if there are
several. -/
def onGrid? (x : Double) (tie : Tie) (exponent : Int) : Option Decimal :=
  let (num, den) := ratio x.mantissa x.exponent (-exponent)
  let below : Decimal := ⟨num / den, exponent⟩
  let above : Decimal := ⟨num / den + 1, exponent⟩
  match x.reads below, x.reads above with
  | true, true => some ⟨tie.quotient num den, exponent⟩
  | true, false => some below
  | false, true => some above
  | false, false => none

/-- A power of ten above the number, by at most three places: the factor is a little more than the
decimal logarithm of two. -/
def scale (x : Double) : Int :=
  (x.mantissa.log2 + x.exponent + 1) * 30103 / 100000 + 1

/-- The decimal with the fewest digits that is read as the number; the nearest one, if there are
several. Exponents are tried downwards, and seventeen digits are always enough. -/
def shortest? (x : Double) (tie : Tie) : Option Decimal :=
  (List.range 20).findSome? fun n : Nat => x.onGrid? tie (x.scale - n)

end Double

end Retrace
