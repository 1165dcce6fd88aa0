/-!
# Cutting texts

Texts are cut at single characters (the bars between the fields of a log line, the last dot of a
qualified name) and at words. The functions on lists of characters carry the meaning; those on
strings wrap them.

* `pieces`: the parts of a text between the occurrences of a character.
* `cutFirst`, `cutLast`: the two sides of the first and of the last occurrence of a character.
* `afterWord`, `beforeLastWord`: what follows the first occurrence of a word, and what stands before
  the last one.
* `splitOn`, `joinWith`, `contains`, `startsWith`, `endsWith`, `lower`: the same on strings.
-/

namespace Retrace.Text

/-! ## Lists of characters -/

/-- The parts of a text between the occurrences of `d`. There is always at least one part. -/
def pieces (d : Char) : List Char → List (List Char)
  | [] => [[]]
  | c :: cs =>
    if c = d then [] :: pieces d cs
    else
      match pieces d cs with
      | [] => [[c]]
      | p :: ps => (c :: p) :: ps

/-- What stands before and after the first occurrence of `d`. -/
def cutFirst (d : Char) : List Char → Option (List Char × List Char)
  | [] => none
  | c :: cs =>
    if c = d then some ([], cs) else (cutFirst d cs).map fun (before, after) => (c :: before, after)

/-- What stands before and after the last occurrence of `d`. -/
def cutLast (d : Char) (cs : List Char) : Option (List Char × List Char) :=
  (cutFirst d cs.reverse).map fun (after, before) => (before.reverse, after.reverse)

/-- What follows the first occurrence of the word `w`. -/
def afterWord (w : List Char) : List Char → Option (List Char)
  | [] => if w.isEmpty then some [] else none
  | c :: cs =>
    if w.isPrefixOf (c :: cs) then some ((c :: cs).drop w.length) else afterWord w cs

/-- What stands before the last occurrence of the word `w`. -/
def beforeLastWord (w : List Char) : List Char → Option (List Char)
  | [] => if w.isEmpty then some [] else none
  | c :: cs =>
    match beforeLastWord w cs with
    | some before => some (c :: before)
    | none => if w.isPrefixOf (c :: cs) then some [] else none

/-- Whether some suffix of a text, the empty one included, satisfies `p`. -/
def anySuffix (p : List Char → Bool) : List Char → Bool
  | [] => p []
  | c :: cs => p (c :: cs) || anySuffix p cs

theorem pieces_ne_nil (d : Char) (cs : List Char) : pieces d cs ≠ [] := by
  cases cs with
  | nil => simp [pieces]
  | cons c cs =>
    rw [pieces]
    split
    · simp
    · split <;> simp

/-! ## Strings -/

/-- The parts of a string between the occurrences of `d`. -/
def splitOn (d : Char) (s : String) : List String :=
  (pieces d s.toList).map String.ofList

/-- The parts with a `d` between each two. -/
def joinWith (d : Char) (parts : List String) : String :=
  String.ofList ([d].intercalate (parts.map String.toList))

/-- Whether `w` occurs in `s`. -/
def contains (s w : String) : Bool :=
  (afterWord w.toList s.toList).isSome

/-- Whether `s` begins with `w`. -/
def startsWith (s w : String) : Bool :=
  w.toList.isPrefixOf s.toList

/-- Whether `s` ends with `w`. -/
def endsWith (s w : String) : Bool :=
  w.toList.isSuffixOf s.toList

/-- What follows the beginning `w` of `s`. -/
def dropStart? (w s : String) : Option String :=
  if startsWith s w then some (String.ofList (s.toList.drop w.length)) else none

/-- What stands before the end `w` of `s`. -/
def dropEnd? (w s : String) : Option String :=
  if endsWith s w then some (String.ofList (s.toList.take (s.length - w.length))) else none

/-- The string with its ASCII letters in lower case. -/
def lower (s : String) : String :=
  String.ofList (s.toList.map Char.toLower)

/-- A qualified name as its owner, when there is one, and its last part: they stand on the two
sides of the last dot. -/
def ownerAndLeaf (name : String) : Option String × String :=
  match cutLast '.' name.toList with
  | some (owner, leaf) => (some (String.ofList owner), String.ofList leaf)
  | none => (none, name)

end Retrace.Text
