import AffectedTests.Failure
/-!
# Changing a disk

Files are written and removed one after the other. The directories on the way to a file are made before
the file, from the outermost on, and a double dot does not cancel the directory before it: that one is
made as well. A change that fails ends there, and what it has made by then stays.
-/

namespace AffectedTests

namespace Disk

/-- A change of a disk. It may fail, and it keeps what it has done if it does. -/
abbrev Change := ExceptT Failure (StateM Disk)

namespace Change

/-- The answer of a change and the disk after it. -/
def apply {α : Type} (c : Change α) (d : Disk) : Except Failure α × Disk :=
  c.run.run d

/-- What is at a path, if there is something. -/
def place? (path : Text) : Change (Option Place) := do
  match Path.storedName path with
  | .error fault => throw (.badName fault)
  | .ok _ =>
    match (← get).lookup path with
    | .ok place => return some place
    | .error .missing => return none
    | .error error => throw (.disk error)

/-- Makes the directory at a path, unless there is something. -/
def makeDirectory (path : Text) : Change Unit := do
  if (← place? path).isNone then modify fun d => d.makeDirectory path

/-- Makes the directory at a path and those on the way to it. If they are too many, none is made. -/
def makeDirectories (path : Text) : Change Unit := do
  let disk ← get
  let missing := (Path.way path).filter fun p => !disk.holds p
  if Limit.nesting.size < missing.length then throw (.exceeds .nesting)
  missing.forM makeDirectory

/-- Writes a file, after the directories on the way to it; an earlier state of the file is lost. -/
def write (path : Text) (bytes : Bytes) : Change Unit := do
  let directory := Path.directory path
  makeDirectories directory
  if (← get).isFile directory then throw (.disk .occupied)
  match ← place? path with
  | some (.directory _) => throw (.disk .isDirectory)
  | _ => modify fun d => d.put path bytes

/-- Removes a file. -/
def remove (path : Text) : Change Unit := do
  match ← place? path with
  | none => throw (.disk .missing)
  | some (.directory _) => throw (.disk .isDirectory)
  | some (.file _) => modify fun d => d.erase path

end Change

end Disk

end AffectedTests
