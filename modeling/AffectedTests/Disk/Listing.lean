import AffectedTests.Failure
/-!
# Listing a directory tree

The files below a directory come in a fixed order, whatever the order of the entries: a directory's own
files by name, then its subdirectories by name, each with all that is below it. A name is the text that its
bytes spell. A directory whose path is too long cannot be opened, and nothing is listed for it. If too many
directories lie within one another there is no list.
-/

namespace AffectedTests

namespace Entry

/-- The name of a file that passes a test. -/
def fileName? (keep : Text → Bool) : Entry → Option Text
  | .file name _ => (some (Path.spelled name)).filter keep
  | .directory _ _ => none

mutual

/-- The paths of the files below a directory at a path: names of files have to pass `keep`, names of
directories `enter`. -/
def filesBelow (keep enter : Text → Bool) (path : Text) : List Entry → List Text
  | entries =>
    ((entries.filterMap (fileName? keep)).mergeSort Text.le).map (Path.join path) ++
      ((subdirectories keep enter path entries).mergeSort fun a b => Text.le a.1 b.1).flatMap (·.2)

/-- The subdirectories of a directory with the files below each. -/
def subdirectories (keep enter : Text → Bool) (path : Text) : List Entry → List (Text × List Text)
  | [] => []
  | .file _ _ :: rest => subdirectories keep enter path rest
  | .directory stored entries :: rest =>
    let name := Path.spelled stored
    let below := Path.join path name
    if enter name then
      (name, if Disk.isTooLong below then [] else filesBelow keep enter below entries) ::
        subdirectories keep enter path rest
    else subdirectories keep enter path rest

end

mutual

/-- How many directories are entered one within another below a path. -/
def depthBelow (enter : Text → Bool) (path : Text) : List Entry → Nat
  | [] => 0
  | e :: rest => max (depth enter path e) (depthBelow enter path rest)

/-- The same for one entry of the directory at a path. A directory that cannot be opened is entered, but
no other one in it. -/
def depth (enter : Text → Bool) (path : Text) : Entry → Nat
  | .file _ _ => 0
  | .directory stored entries =>
    let name := Path.spelled stored
    let below := Path.join path name
    if enter name then (if Disk.isTooLong below then 0 else depthBelow enter below entries) + 1 else 0

end

end Entry

/-- The files below a path of a disk; none when there is no directory. -/
def Disk.filesBelow (d : Disk) (keep enter : Text → Bool) (path : Text) : Except Failure (List Text) :=
  match d.lookup path with
  | .ok (.directory entries) =>
    if Limit.nesting.size < Entry.depthBelow enter path entries then .error (.exceeds .nesting)
    else .ok (Entry.filesBelow keep enter path entries)
  | _ => .ok []

end AffectedTests
