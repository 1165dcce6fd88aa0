import Retrace.Files

/-!
# Files in memory

A tree holds the working directory and the directory around it; nothing above that is known. Paths
start in the working directory. In a path a single dot leads nowhere, and two dots lead upwards.

* `FileTree`: files and directories as a value.
* `FileTree.insert`, `FileTree.ofList`: a file or a directory at a path, and many of them.
* `FileTree.find`: what a path leads to.
* `FileTree.files`: the access to such files.
-/

namespace Retrace

/-- A file or a directory. -/
inductive FileTree
  /-- A file with its text. -/
  | file (text : String)
  /-- A directory with its entries. -/
  | directory (entries : List (String × FileTree))
  deriving Inhabited

namespace FileTree

/-- The directory without entries. -/
def empty : FileTree := .directory []

/-- The name of the working directory. -/
def workingName : String := "work"

/-- The entries of a directory; a file has none. -/
def entries : FileTree → List (String × FileTree)
  | .file _ => []
  | .directory entries => entries

/-- Puts an entry into a directory, in the place of one of the same name. -/
def put (name : String) (t : FileTree) : List (String × FileTree) → List (String × FileTree)
  | [] => [(name, t)]
  | (name', t') :: rest =>
    if name' = name then (name, t) :: rest else (name', t') :: put name t rest

/-- Puts a file, or a directory when there is no text, where plain names lead. Directories on the
way are made. -/
def insertAt (text : Option String) : List String → FileTree → FileTree
  | [], t => text.elim (.directory t.entries) .file
  | name :: names, t =>
    .directory (put name (insertAt text names ((t.entries.lookup name).getD empty)) t.entries)

/-- Puts a file, or a directory when there is no text, where the names lead from a place. Every
directory that they lead through is made, also one that they leave upwards again. -/
def insertFrom (text : Option String) (place : List String) : List String → FileTree → FileTree
  | [], t => insertAt text place t
  | name :: names, t =>
    let t := insertAt none place t
    if name = "" ∨ name = "." then insertFrom text place names t
    else if name ≠ ".." then insertFrom text (place ++ [name]) names t
    else if place.isEmpty then t
    else insertFrom text place.dropLast names t

/-- Puts a file, or a directory when there is no text, at a path. Above the tree there is no place
for it. -/
def insert (t : FileTree) (path : String) (text : Option String) : FileTree :=
  insertFrom text [workingName] (Text.splitOn '/' path) t

/-- The tree of the given files and directories. -/
def ofList (files : List (String × Option String)) : FileTree :=
  files.foldl (fun t (path, text) => t.insert path text) (.directory [(workingName, empty)])

/-- The longest name, in bytes. -/
def maxNameLength : Nat := 255

/-- The longest path, in bytes. -/
def maxPathLength : Nat := 4095

/-- Follows names from `here`, below the directories `above`, the nearest first. -/
def follow (above : List FileTree) (here : FileTree) : List String → Except FileError FileTree
  | [] => .ok here
  | name :: names =>
    match here with
    | .file _ => .error .notADirectory
    | .directory entries =>
      if name = "" ∨ name = "." then follow above here names
      else if name = ".." then
        match above with
        | [] => .error .notFound
        | up :: above => follow above up names
      else if maxNameLength < name.utf8ByteSize then .error .nameTooLong
      else
        match entries.lookup name with
        | none => .error .notFound
        | some next => follow (here :: above) next names

/-- What a path leads to. -/
def find (t : FileTree) (path : String) : Except FileError FileTree :=
  if '\x00' ∈ path.toList then .error .invalidPath
  else if maxPathLength < path.utf8ByteSize then .error .nameTooLong
  else if path = "" ∨ Text.startsWith path "/" then .error .notFound
  else follow [] t (workingName :: Text.splitOn '/' path)

/-- The text of the file at a path. -/
def read (t : FileTree) (path : String) : Except FileError String :=
  match t.find path with
  | .error e => .error e
  | .ok (.file text) => .ok text
  | .ok (.directory _) => .error .isADirectory

/-- The entries of the directory at a path. -/
def list (t : FileTree) (path : String) : Except FileError (List DirectoryEntry) :=
  match t.find path with
  | .error e => .error e
  | .ok (.file _) => .error .notADirectory
  | .ok (.directory entries) =>
    .ok <| entries.map fun
      | (name, .file _) => ⟨name, false⟩
      | (name, .directory _) => ⟨name, true⟩

/-- The access to the files of a tree. -/
def files (t : FileTree) : Files Id where
  read := t.read
  list := t.list

end FileTree

end Retrace
