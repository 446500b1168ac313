/-!
# Files

A path is read as text, and reading fails for one of a few reasons. `Directory` is a value with
the files and directories below a working directory, so reading from it is a function: a path is
followed name by name, each step but the last through a directory.
-/

namespace Precedence

/-- Why a path cannot be read as text. -/
inductive ReadError
  /-- Nothing has the path. -/
  | notFound
  /-- The path goes on below a file. -/
  | notDirectory
  /-- A name of the path, or the path, is too long. -/
  | nameTooLong
  /-- The path holds the character with code zero. -/
  | nulInPath
  /-- The path is that of a directory. -/
  | isDirectory
  /-- The file is not a text in UTF-8. -/
  | notText
  /-- Another reason. -/
  | other (reason : String)
  deriving DecidableEq

namespace ReadError

/-- The message of a read error. -/
def message : ReadError → String
  | .notFound => "No such file or directory (os error 2)"
  | .notDirectory => "Not a directory (os error 20)"
  | .nameTooLong => "File name too long (os error 36)"
  | .nulInPath => "file name contained an unexpected NUL byte"
  | .isDirectory => "Is a directory (os error 21)"
  | .notText => "stream did not contain valid UTF-8"
  | .other reason => reason

/-- Whether an error means that nothing has the path. -/
def isAbsence : ReadError → Bool
  | .notFound | .notDirectory | .nameTooLong | .nulInPath => true
  | .isDirectory | .notText | .other _ => false

end ReadError

/-- What a path of a directory leads to. -/
inductive FileNode
  /-- A file with its bytes. -/
  | file (content : ByteArray)
  /-- A directory. -/
  | directory

/-- The files and directories below a working directory. -/
structure Directory where
  /-- What each path, as a list of names, leads to; of two entries for a path the first counts. -/
  entries : List (List String × FileNode) := []

namespace Directory

/-- The names of a path. -/
def names (path : String) : List String :=
  path.splitOn "/"

/-- The directory with a file or a directory added, and with the directories that its path goes
through. -/
def add (directory : Directory) (path : String) (node : FileNode) : Directory :=
  ⟨((names path).filter fun name => name ≠ "" ∧ name ≠ ".", node) :: directory.entries⟩

/-- What a list of names leads to. -/
def find? (directory : Directory) (path : List String) : Option FileNode :=
  match directory.entries.lookup path with
  | some node => some node
  | none =>
    if path.isEmpty || directory.entries.any (path.isPrefixOf ·.1) then some .directory else none

/-- What names lead to from outside the working directory, where nothing is known but that there
are directories. -/
def outside (names : List String) : Except ReadError FileNode :=
  if names.all (["", ".", ".."].contains ·) then .ok .directory else .error .notFound

/-- Follows the names of a path from a place, whose own names are given from its end. -/
def follow (directory : Directory) : List String → List String → Except ReadError FileNode
  | place, names =>
    match directory.find? place.reverse with
    | none => .error .notFound
    | some (.file content) => if names.isEmpty then .ok (.file content) else .error .notDirectory
    | some .directory =>
      match names with
      | [] => .ok .directory
      | name :: names =>
        if name = "" ∨ name = "." then directory.follow place names
        else if 255 < name.utf8ByteSize then .error .nameTooLong
        else if name = ".." then
          match place with
          | [] => outside names
          | _ :: above => directory.follow above names
        else directory.follow (name :: place) names
termination_by _ names => names.length

/-- Reads a path as text. -/
def read (directory : Directory) (path : String) : Except ReadError String := do
  if path.isEmpty then throw .notFound
  if path.contains '\x00' then throw .nulInPath
  if 4096 ≤ path.utf8ByteSize then throw .nameTooLong
  let names := names path
  match ← if path.startsWith "/" then outside names else directory.follow [] names with
  | .directory => throw .isDirectory
  | .file content =>
    match String.fromUTF8? content with
    | some text => return text
    | none => throw .notText

end Directory

end Precedence
