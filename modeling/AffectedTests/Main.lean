import AffectedTests.Command.Run
import AffectedTests.Tree.Stored
/-!
# The program

Reads the repository from the machine's disk, the change of the commit from standard input, and the tree
of each source from the file beside it that has `.tree.json` after its name; then runs the command and
prints what it says. Nothing is decided here.
-/

namespace AffectedTests

namespace Program

/-! ## Reading -/

/-- Everything that is left on standard input. -/
partial def readAll (input : IO.FS.Stream) (sofar : Bytes) : IO Bytes := do
  let more ← input.read 65536
  if more.isEmpty then return sofar else readAll input (sofar ++ more.toList)

/-- The bytes of a file, if it can be read. -/
def readFile? (path : String) : IO (Option Bytes) := do
  try
    return some (← IO.FS.readBinFile path).toList
  catch _ => return none

/-- Puts what is below a directory on a disk; what a version control system keeps is left out. -/
partial def readBelow (directory : String) (disk : Disk) : IO Disk := do
  let mut disk := disk.makeDirectory directory
  for entry in ← (← IO.FS.realPath directory).readDir do
    let path := directory ++ "/" ++ entry.fileName
    if ← entry.path.isDir then
      if entry.fileName = ".git" then disk := disk.makeDirectory path
      else if (← entry.path.symlinkMetadata).type == .dir then disk ← readBelow path disk
    else if let some bytes ← readFile? path then disk := disk.put path bytes
  return disk

/-- The disk that a run looks at. -/
def readDisk (directory : Text) (options : Command.Options) : IO Disk := do
  let mut disk : Disk := []
  if let .ok repository := Path.resolve (Path.join directory options.repository) then
    if let some path := Text.toString? repository then
      try disk ← readBelow path disk catch _ => pure ()
  if let some path := (options.config.map (Path.join directory)).bind Text.toString? then
    if let some bytes ← readFile? path then disk := disk.put path bytes
  return disk

/-- The trees that are stored on a disk, by source. -/
def grammars (disk : Disk) (_ : Language) (source : Bytes) : Tree :=
  let isTree (name : Text) : Bool := name.endsWith ".tree.json"
  let listed := (disk.filesBelow isTree (fun _ => true) "/").toOption.getD []
  let stored := listed.findSome? fun path => do
    let bytes ← (disk.read (path.take (path.length - 10))).toOption
    if bytes = source then Tree.ofStored? source (← (disk.read path).toOption) else none
  stored.getD (Tree.ofRows source [])

/-- The repository in a directory, with the one change that standard input gives. -/
def repositoryAt? (disk : Disk) (change : Text) (path : Text) : Option Repository :=
  if disk.isDirectory (Path.join path ".git") || disk.isFile (Path.join path ".git") then
    some
      { root := path
        find := fun name => .ok ⟨name, [name ++ ("^" : Text)]⟩
        diff := fun _ => .ok change }
  else none

/-! ## Writing -/

/-- Writes a text and a line end. -/
def putText (output : IO.FS.Stream) (text : Text) : IO Unit := do
  output.write (ByteArray.mk ((Utf8.encode text).getD []).toArray)
  output.flush

/-- Says how a run ended, where it did not succeed. -/
def putEnding (output : IO.FS.Stream) : Command.Ending → IO Unit
  | .success => return ()
  | .usage error => putText output ("Error: " ++ error.message ++ ("\n" : Text))
  | .refused => putText output "Aborted!\n"
  | .failed cause => putText output ("Failed: " ++ cause.summary ++ ("\n" : Text))

/-- Writes what a run says, and gives its exit status. -/
def put (outcome : Command.Outcome) : IO UInt32 := do
  let errors ← IO.getStderr
  for warning in outcome.warnings do
    putText errors (warning ++ ("\n" : Text))
  putText (← IO.getStdout) outcome.output
  putEnding errors outcome.ending
  return outcome.ending.status.toUInt32

/-- Runs the command with some options. -/
def run (options : Command.Options) : IO Command.Outcome := do
  let directory : Text := (← IO.currentDir).toString
  let disk ← readDisk directory options
  let change := Diff.decodePatch (← readAll (← IO.getStdin) [])
  let start ← IO.monoMsNow
  let found ← IO.lazyPure fun _ =>
    Command.examine ⟨directory, disk, grammars disk, repositoryAt? disk change⟩ options
  let stop ← IO.monoMsNow
  match found with
  | .error obstacle => return obstacle.outcome
  | .ok findings => return findings.outcome options (stop - start)

end Program

end AffectedTests

open AffectedTests in
/-- Finds the tests that a commit affects. -/
def main (arguments : List String) : IO UInt32 :=
  match Command.Request.ofArguments (arguments.map Text.ofString) with
  | .error error => Program.put ⟨[], [], error.ending⟩
  | .ok .help => Program.put ⟨Command.help, [], .success⟩
  | .ok (.run options) => do Program.put (← Program.run options)
