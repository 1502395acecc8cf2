import AffectedTests.Path.Basic
/-!
# Disks

A disk is a tree of directories and files, seen from its root directory. It keeps names as bytes, so that
two names are one if their bytes are, however they are written. Looking a path up goes from name to name; a
double dot goes back to the directory that the way came through. A name that is too long is refused where a
directory is searched for it, and a path that is too long at once.
-/

namespace AffectedTests

/-- A file or a directory. -/
inductive Entry where
  | file (name : Bytes) (contents : Bytes)
  | directory (name : Bytes) (entries : List Entry)

/-- The entries of the root directory. -/
abbrev Disk := List Entry

/-- Why a file cannot be read, written or removed. -/
inductive DiskError
  | missing
  | occupied
  | isDirectory
  | notDirectory
  | nameTooLong
  deriving DecidableEq

/-- The wording of the operating system. -/
def DiskError.wording : DiskError → String
  | .missing => "No such file or directory"
  | .occupied => "File exists"
  | .isDirectory => "Is a directory"
  | .notDirectory => "Not a directory"
  | .nameTooLong => "File name too long"

namespace Entry

/-- The bytes of the name. -/
def name : Entry → Bytes
  | .file name _ => name
  | .directory name _ => name

end Entry

namespace Disk

/-! ## Looking up -/

/-- The most bytes that one name can have. -/
def maxNameLength : Nat := 255

/-- The most bytes that a path can have. -/
def maxPathLength : Nat := 4095

/-- Whether a path has more bytes than it can have. -/
def isTooLong (path : Text) : Bool :=
  match Path.storedName path with
  | .ok bytes => maxPathLength < bytes.length
  | .error _ => false

/-- The entry of a directory with a name. -/
def find? (name : Bytes) (entries : List Entry) : Option Entry :=
  entries.find? fun e => e.name == name

/-- What a path leads to. -/
inductive Place
  | file (bytes : Bytes)
  | directory (entries : List Entry)

/-- Follows names from a directory; `above` holds the directories that the way came through. -/
def follow (here : List Entry) (above : List (List Entry)) : List Text → Except DiskError Place
  | [] => .ok (.directory here)
  | name :: rest =>
    if name = [] ∨ name = Path.here then follow here above rest
    else if name = Path.above then
      match above with
      | [] => follow here [] rest
      | parent :: above => follow parent above rest
    else
      match Path.storedName name with
      | .error _ => .error .missing
      | .ok stored =>
        if maxNameLength < stored.length then .error .nameTooLong
        else
          match find? stored here with
          | none => .error .missing
          | some (.directory _ entries) => follow entries (here :: above) rest
          | some (.file _ bytes) => if rest = [] then .ok (.file bytes) else .error .notDirectory

/-- What is at an absolute path. -/
def lookup (d : Disk) (path : Text) : Except DiskError Place :=
  if isTooLong path then .error .nameTooLong
  else follow d [] (path.splitOn Path.separator)

def isFile (d : Disk) (path : Text) : Bool :=
  match d.lookup path with
  | .ok (.file _) => true
  | _ => false

/-- Whether there is something at a path. -/
def holds (d : Disk) (path : Text) : Bool :=
  match d.lookup path with
  | .ok _ => true
  | .error _ => false

def isDirectory (d : Disk) (path : Text) : Bool :=
  match d.lookup path with
  | .ok (.directory _) => true
  | _ => false

/-- The bytes of the file at a path. -/
def read (d : Disk) (path : Text) : Except DiskError Bytes :=
  match d.lookup path with
  | .ok (.file bytes) => .ok bytes
  | .ok (.directory _) => .error .isDirectory
  | .error e => .error e

/-! ## Changing -/

/-- The names of a path as they are stored, without those that lead nowhere. -/
def route? (path : Text) : Option (List Bytes) :=
  (Path.names (Path.separator :: path)).mapM fun name => (Path.storedName name).toOption

/-- Changes a disk along the names of a path; one that cannot be stored changes nothing. -/
def changeAlong (d : Disk) (path : Text) (change : List Bytes → List Entry → List Entry) : Disk :=
  match route? path with
  | some names => change names d
  | none => d

/-- The directory that holds one file at the end of a list of names. -/
def single (contents : Bytes) : List Bytes → List Entry
  | [] => []
  | [name] => [.file name contents]
  | name :: rest => [.directory name (single contents rest)]

/-- Stores a file; directories on the way are created. A file that stands in the way gives way. -/
def store (contents : Bytes) : List Bytes → List Entry → List Entry
  | [], entries => entries
  | names, [] => single contents names
  | name :: rest, e :: entries =>
    if e.name = name then
      match rest, e with
      | [], _ => .file name contents :: entries
      | rest, .directory _ inner => .directory name (store contents rest inner) :: entries
      | rest, .file _ _ => single contents (name :: rest) ++ entries
    else e :: store contents (name :: rest) entries

/-- The disk with a file at a path, whatever stood there. -/
def put (d : Disk) (path : Text) (contents : Bytes) : Disk :=
  d.changeAlong path (store contents)

/-- The directory that stands at the end of a list of names, created where it is missing. -/
def storeDirectory : List Bytes → List Entry → List Entry
  | [], entries => entries
  | name :: rest, [] => [.directory name (storeDirectory rest [])]
  | name :: rest, e :: entries =>
    if e.name = name then
      match e with
      | .directory _ inner => .directory name (storeDirectory rest inner) :: entries
      | .file _ _ => e :: entries
    else e :: storeDirectory (name :: rest) entries

/-- The disk with a directory at a path. -/
def makeDirectory (d : Disk) (path : Text) : Disk :=
  d.changeAlong path storeDirectory

/-- Takes the entry at the end of a list of names away. -/
def drop : List Bytes → List Entry → List Entry
  | [], entries => entries
  | _, [] => []
  | name :: rest, e :: entries =>
    if e.name = name then
      match rest, e with
      | [], _ => entries
      | rest, .directory _ inner => .directory name (drop rest inner) :: entries
      | _, .file _ _ => e :: entries
    else e :: drop (name :: rest) entries

/-- The disk without what is at a path. -/
def erase (d : Disk) (path : Text) : Disk :=
  d.changeAlong path drop

end Disk

end AffectedTests
