/-!
# Blank characters

The characters with the Unicode property White_Space, and the trimming of texts by them. Fields of a
log are padded with these, and literals may hold them between tokens.

* `isBlank`: the property.
* `trim`: a text without the blanks at its two ends.
* `skipBlanks`: a text from its first character that is no blank.
-/

namespace Retrace.Text

/-- White_Space: five controls, the space, next line, the no-break space and the typographic
spaces and separators. -/
def isBlank (c : Char) : Bool :=
  let n := c.toNat
  (0x09 ≤ n && n ≤ 0x0D) || n == 0x20 || n == 0x85 || n == 0xA0 || n == 0x1680 ||
    (0x2000 ≤ n && n ≤ 0x200A) || n == 0x2028 || n == 0x2029 || n == 0x202F || n == 0x205F ||
    n == 0x3000

/-- A text from its first character that is no blank. -/
def skipBlanks (cs : List Char) : List Char :=
  cs.dropWhile isBlank

/-- A text without the characters at its end that satisfy `p`. -/
def dropEndWhile (p : Char → Bool) (cs : List Char) : List Char :=
  (cs.reverse.dropWhile p).reverse

/-- A text without the blanks at its two ends. -/
def trimChars (cs : List Char) : List Char :=
  dropEndWhile isBlank (skipBlanks cs)

/-- A text without the blanks at its two ends. -/
def trim (s : String) : String :=
  String.ofList (trimChars s.toList)

theorem length_skipBlanks_le (cs : List Char) : (skipBlanks cs).length ≤ cs.length := by
  induction cs with
  | nil => simp [skipBlanks]
  | cons c cs ih =>
    simp only [skipBlanks, List.dropWhile_cons] at ih ⊢
    split
    · simp only [List.length_cons]; omega
    · simp

end Retrace.Text
