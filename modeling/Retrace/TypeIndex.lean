import Retrace.Locator
import Retrace.Signature
import Retrace.Table

/-!
# The index of types

Which source file holds which type. Types are filed under their dotted names; triggers under the
name of their code unit.

* `TypeIndex.insert`: files a type under its dotted name.
* `TypeIndex.resolve`: the source of the callee of a signature.
* `TypeIndex.ofFiles`: the index of the class and trigger files among some paths.
-/

namespace Retrace

/-- The dotted name of a type reference: the slash behind a namespace and the dollar sign before an
inner class become dots, each once. The names of trigger code units stay. -/
def dottedName (typeref : String) : String :=
  if Text.startsWith typeref triggerUnit then typeref
  else String.ofList (toDot '$' (toDot '/' typeref.toList))
where
  /-- The text with the first `d` replaced by a dot. -/
  toDot (d : Char) (cs : List Char) : List Char :=
    match Text.cutFirst d cs with
    | some (before, after) => before ++ '.' :: after
    | none => cs

/-- Sources by dotted name. -/
structure TypeIndex where
  /-- The sources. -/
  sources : Table Locator := .empty
  deriving DecidableEq, Inhabited

namespace TypeIndex

/-- The index of no types. -/
def empty : TypeIndex := {}

/-- Files `typeref` as living at `source`. A type filed again moves to the new source. -/
def insert (t : TypeIndex) (typeref : String) (source : Locator) : TypeIndex where
  sources := t.sources.insert (dottedName typeref) source

/-- The number of types. -/
def size (t : TypeIndex) : Nat :=
  t.sources.size

/-- The source of a callee. A signature with a parameter list is looked up by its class, any other
by its whole text. -/
def resolve (t : TypeIndex) (signature : String) : Option Locator :=
  t.sources.get? (if Text.endsWith signature ")" then Signature.className signature else signature)

/-- The type that a source file defines, by its file name. -/
def typeOfFile? (fileName : String) : Option String :=
  match Text.dropEnd? ".cls" fileName with
  | some type => some type
  | none => (Text.dropEnd? ".trigger" fileName).map (triggerUnit ++ ·)

/-- The index of the class and trigger files among `paths`. -/
def ofFiles (paths : List String) : TypeIndex :=
  paths.foldl
    (fun t path =>
      match (Text.fileName? path).bind typeOfFile? with
      | some type => t.insert type (.ofPath path)
      | none => t)
    .empty

end TypeIndex

end Retrace
