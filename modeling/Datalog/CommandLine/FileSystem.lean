import Datalog.Text.Place

/-!
# File systems

A run reads its input by a path, which is followed part by part from the folder
in which the run was started, or from the root if the path starts with a slash.
A part without characters and the part of a single dot stay where they are, two
dots lead to the folder around, and every other part names a file or a folder.
-/

set_option autoImplicit false

namespace Datalog.CommandLine

/-- Why a file cannot be read. -/
inductive ReadError where
  | notFound
  | notPermitted
  | notDirectory
  | isDirectory
  | nameTooLong
  | notText
  /-- Another cause, in the words of the system. -/
  | other (cause : String)
deriving DecidableEq, Repr

/-- The wording of a cause. -/
def ReadError.message : ReadError → String
  | .notFound => "No such file or directory (os error 2)"
  | .notPermitted => "Permission denied (os error 13)"
  | .notDirectory => "Not a directory (os error 20)"
  | .isDirectory => "Is a directory (os error 21)"
  | .nameTooLong => "File name too long (os error 36)"
  | .notText => "stream did not contain valid UTF-8"
  | .other cause => cause

/-- The names that lead from the root to a file or a folder. -/
abbrev Route := List (List Char)

/-- A file: where it is, and what it holds. -/
structure File where
  route : Route
  contents : ByteArray

/-- The files and folders that a run can see.  The folders that lead to one of
them exist as well. -/
structure FileSystem where
  files : List File
  folders : List Route := []
  /-- The folder in which the run was started. -/
  start : Route

namespace FileSystem

/-- How many bytes a path may have. -/
def longestPath : Nat := 4095

/-- How many bytes a name may have. -/
def longestName : Nat := 255

/-- The parts of a path. -/
def parts (path : String) : List (List Char) := path.toList.splitOn '/'

/-- The file at a route. -/
def file? (system : FileSystem) (route : Route) : Option File :=
  system.files.find? fun file => file.route == route

/-- Whether there is a folder at a route. -/
def isFolder (system : FileSystem) (route : Route) : Bool :=
  (system.start :: system.folders ++ system.files.map fun file => file.route.dropLast).any
    route.isPrefixOf

/-- Follows the parts of a path from a folder on. -/
def follow (system : FileSystem) : Route → List (List Char) → Except ReadError ByteArray
  | _, [] => .error .isDirectory
  | route, [] :: rest => system.follow route rest
  | route, ['.'] :: rest => system.follow route rest
  | route, ['.', '.'] :: rest => system.follow route.dropLast rest
  | route, name :: rest =>
    if longestName < Text.byteLength name then .error .nameTooLong
    else
      match system.file? (route ++ [name]) with
      | some file => if rest.isEmpty then .ok file.contents else .error .notDirectory
      | none =>
        if system.isFolder (route ++ [name]) then system.follow (route ++ [name]) rest
        else .error .notFound

/-- Reads the file at a path. -/
def read (system : FileSystem) (path : String) : Except ReadError ByteArray :=
  if path.isEmpty then .error .notFound
  else if longestPath < path.utf8ByteSize then .error .nameTooLong
  else system.follow (if path.startsWith "/" then [] else system.start) (parts path)

end FileSystem

end Datalog.CommandLine
