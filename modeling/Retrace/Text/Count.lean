/-!
# Reading counts

Line numbers, sizes and limits are whole numbers below 2^64, written with ASCII digits and an
optional plus sign. Leading zeros are allowed.

* `CountError`: why a text is no count, and the wording of each cause.
* `readCount`: the reader. Of several faults the leftmost character decides.
-/

namespace Retrace.Text

/-- The largest count, one less than the 64th power of two. -/
def maxCount : Nat := 0xFFFFFFFFFFFFFFFF

/-- Why a text is no count. -/
inductive CountError
  | empty
  | invalidDigit
  | tooLarge
  deriving DecidableEq, Repr

/-- The wording of the cause. -/
def CountError.message : CountError → String
  | .empty => "cannot parse integer from empty string"
  | .invalidDigit => "invalid digit found in string"
  | .tooLarge => "number too large to fit in target type"

/-- The value of an ASCII digit. -/
def digitValue? (c : Char) : Option Nat :=
  if c.isDigit then some (c.toNat - '0'.toNat) else none

/-- Reads digits behind a number already read. -/
def readDigits : Nat → List Char → Except CountError Nat
  | n, [] => .ok n
  | n, c :: cs =>
    match digitValue? c with
    | none => .error .invalidDigit
    | some d => if 10 * n + d ≤ maxCount then readDigits (10 * n + d) cs else .error .tooLarge

/-- Reads a count. A sign alone is an invalid digit. -/
def readCountChars : List Char → Except CountError Nat
  | [] => .error .empty
  | ['+'] => .error .invalidDigit
  | '+' :: cs => readDigits 0 cs
  | cs => readDigits 0 cs

/-- Reads a count. -/
def readCount (s : String) : Except CountError Nat :=
  readCountChars s.toList

/-- Reads a count, where the cause of a failure does not matter. -/
def readCount? (s : String) : Option Nat :=
  (readCount s).toOption

end Retrace.Text
