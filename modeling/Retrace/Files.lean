import Retrace.Text.Path

/-!
# Files

How the program reads files. The same program runs on the files of a computer and on files held in
memory, so the kind of computation is a parameter.

* `Files`: reading a file and listing a directory, either of which may fail with a `FileError`.
* `Files.below`: all files below a directory.
-/

namespace Retrace

/-- Why a file could not be read. -/
inductive FileError
  | notFound
  | notADirectory
  | isADirectory
  /-- A name on the path, or the whole path, is longer than the system takes. -/
  | nameTooLong
  /-- The path holds the character that ends paths. -/
  | invalidPath
  /-- Any other cause, in the words of the system. -/
  | other (text : String)
  deriving DecidableEq, Repr

/-- The wording of the cause. -/
def FileError.message : FileError → String
  | .notFound => "No such file or directory (os error 2)"
  | .notADirectory => "Not a directory (os error 20)"
  | .isADirectory => "Is a directory (os error 21)"
  | .nameTooLong => "File name too long (os error 36)"
  | .invalidPath => "file name contained an unexpected NUL byte"
  | .other text => text

/-- An entry of a directory. -/
structure DirectoryEntry where
  /-- Its name. -/
  name : String
  /-- Whether it is a directory. -/
  isDirectory : Bool

/-- Access to files. -/
structure Files (m : Type → Type) where
  /-- The text of a file. -/
  read : String → m (Except FileError String)
  /-- The entries of a directory. -/
  list : String → m (Except FileError (List DirectoryEntry))

namespace Files

/-- No path has more names than this: it holds at most 4096 characters, half of them slashes. -/
def maxDepth : Nat := 2048

/-- Goes through directories one after the other, up to the first that cannot be listed. -/
def gather {m : Type → Type} [Monad m] (visit : String → m (Except FileError (List String))) :
    List String → m (Except FileError (List String))
  | [] => return .ok []
  | directory :: rest => do
    match ← visit directory with
    | .error e => return .error e
    | .ok found =>
      match ← gather visit rest with
      | .error e => return .error e
      | .ok more => return .ok (found ++ more)

/-- The files in a directory and at most `depth` directories below it: first its own files, then
those of its subdirectories, the last one first. -/
def belowTo {m : Type → Type} [Monad m] (files : Files m) :
    Nat → String → m (Except FileError (List String))
  | 0, _ => return .ok []
  | depth + 1, directory => do
    match ← files.list directory with
    | .error e => return .error e
    | .ok entries =>
      let pathOf (e : DirectoryEntry) := Text.joinPath directory e.name
      let own := (entries.filter fun e => !e.isDirectory).map pathOf
      let subdirectories := ((entries.filter (·.isDirectory)).map pathOf).reverse
      match ← gather (belowTo files depth) subdirectories with
      | .error e => return .error e
      | .ok found => return .ok (own ++ found)

/-- All files below a directory. -/
def below {m : Type → Type} [Monad m] (files : Files m) (directory : String) :
    m (Except FileError (List String)) :=
  files.belowTo maxDepth directory

end Files

end Retrace
