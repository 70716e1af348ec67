/-!
# The files of a directory

A path is a chain of names with slashes between them.  It is followed name by
name, from the working directory or, if it begins with a slash, from the root.
An empty name and `.` stay at a directory, and `..` leaves for the one above.
The working directory holds files only, and no name is found outside of it.
-/

namespace WatMachine

namespace CommandLine

/-- Why a path leads to no contents. -/
inductive FileFault where
  | notFound
  | notDirectory
  | isDirectory
  | nameTooLong
  | other (message : String)
  deriving Repr, DecidableEq

namespace FileFault

/-- The message of a file that cannot be read. -/
def message : FileFault → String
  | notFound => "No such file or directory (os error 2)"
  | notDirectory => "Not a directory (os error 20)"
  | isDirectory => "Is a directory (os error 21)"
  | nameTooLong => "File name too long (os error 36)"
  | other message => message

end FileFault

namespace Path

/-- The largest size of a name, in bytes. -/
def nameLimit : Nat := 255

/-- The largest size of a path, in bytes. -/
def sizeLimit : Nat := 4095

/-- The first name of a path and the names behind its slashes. -/
def split : List Char → List Char × List (List Char)
  | [] => ([], [])
  | c :: rest =>
      let (name, names) := split rest
      if c = '/' then ([], name :: names) else (c :: name, names)

/-- The names of a path in their order. -/
def names (path : String) : List String :=
  let (name, names) := split path.toList
  (name :: names).map String.ofList

end Path

/-- The files of the working directory by their names. -/
structure Directory where
  files : List (String × ByteArray)

namespace Directory

/-- Where a path has led. -/
inductive Place where
  /-- The working directory. -/
  | working
  /-- A directory other than the working directory. -/
  | outside
  /-- A file with these contents. -/
  | file (contents : ByteArray)

namespace Place

/-- Whether a place is a file. -/
def isFile : Place → Bool
  | file _ => true
  | working => false
  | outside => false

end Place

/-- The place from which a path is followed. -/
def start (path : String) : Place :=
  if path.toList.head? = some '/' then .outside else .working

/-- The contents of the file with a name at a place. -/
def find? (directory : Directory) (name : String) : Place → Option ByteArray
  | .working => directory.files.lookup name
  | .outside => none
  | .file _ => none

/-- Follows one name of a path.  No name, not even an empty one, leads on from
a file. -/
def follow (directory : Directory) (place : Place) (name : String) : Except FileFault Place :=
  if place.isFile then .error .notDirectory
  else if name = "" ∨ name = "." then .ok place
  else if name = ".." then .ok .outside
  else if Path.nameLimit < name.utf8ByteSize then .error .nameTooLong
  else match directory.find? name place with
    | some contents => .ok (.file contents)
    | none => .error .notFound

/-- The place to which a path leads. -/
def locate (directory : Directory) (path : String) : Except FileFault Place :=
  if path = "" then .error .notFound
  else if Path.sizeLimit < path.utf8ByteSize then .error .nameTooLong
  else (Path.names path).foldlM directory.follow (start path)

/-- The contents of the file to which a path leads. -/
def contents (directory : Directory) (path : String) : Except FileFault ByteArray := do
  match ← directory.locate path with
  | .file contents => .ok contents
  | .working => .error .isDirectory
  | .outside => .error .isDirectory

end Directory

end CommandLine

end WatMachine
