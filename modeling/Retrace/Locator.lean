import Retrace.Text.Path

/-!
# Source locators

Where a frame's code lives: the full path, and the short name that is shown to the user. The
locator of unknown code has an empty path.

* `Locator`: the type; `Locator.ofPath` builds one from a path or a file URI.
* `Locator.matchesFile`: whether a file, written in full or by its last names, is this source.
* `Locator.text`: the locator as shown in a stack listing.
-/

namespace Retrace

/-- Where code lives. -/
structure Locator where
  /-- The file name shown to the user. -/
  name : String := ""
  /-- The full path or URI. -/
  path : String := ""
  deriving DecidableEq, Repr, Inhabited

namespace Locator

/-- The locator of unknown code. -/
def unknown : Locator := {}

/-- The locator of a path; its name is the last name of the path, a `file://` in front aside. -/
def ofPath (path : String) : Locator where
  name := (Text.fileName? ((Text.dropStart? "file://" path).getD path)).getD ""
  path := path

/-- Whether nothing is known of the source. -/
def isEmpty (l : Locator) : Bool :=
  l.path = ""

/-- A path with slashes in place of backslashes. -/
def forwardSlashes (path : String) : List Char :=
  path.toList.map fun c => if c = '\\' then '/' else c

/-- Whether `file` names this source: by its name, by its path, or by last names of its path. Both
kinds of slashes separate names, and slashes in front of `file` do not count. -/
def matchesFile (l : Locator) (file : String) : Bool :=
  if l.isEmpty || file = "" then false
  else if l.name = file || l.path = file then true
  else
    ('/' :: (forwardSlashes file).dropWhile (· = '/')).isSuffixOf (forwardSlashes l.path)

/-- The path, or a placeholder for unknown code. -/
def text (l : Locator) : String :=
  if l.isEmpty then "<unknown>" else l.path

end Locator

end Retrace
