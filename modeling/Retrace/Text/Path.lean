import Retrace.Text.Cut

/-!
# Paths

A path is a text whose names are separated by slashes. Repeated slashes, slashes at the end and
single dots do not name anything; a backslash is an ordinary character.

* `fileName?`: the last name of a path.
* `joinPath`: a name below a directory.
-/

namespace Retrace.Text

/-- The last name of a path. The empty path, the root and a path that ends by going up have none. -/
def fileName? (path : String) : Option String :=
  let names := (splitOn '/' path).filter fun name => name ≠ "" ∧ name ≠ "."
  match names.getLast? with
  | some ".." => none
  | last => last

/-- The path of `name` below `directory`. An absolute name stands for itself, and a directory that
ends in a slash, or is empty, needs no further slash. -/
def joinPath (directory name : String) : String :=
  if startsWith name "/" then name
  else if directory = "" || endsWith directory "/" then directory ++ name
  else directory ++ "/" ++ name

end Retrace.Text
