import AffectedTests.Source.Import
import AffectedTests.Table
import AffectedTests.Text.Digit
import AffectedTests.Text.Shown
/-!
# Sessions

A session is what an analysis has already seen of a workspace: sources, parsed files, the list of the
project's files, and resolved imports. What was seen once is seen unchanged from then on, until it is
forgotten. The views below give the answer of a query from a session and a workspace without changing
either; a query gives that answer and notes what it has seen.
-/

namespace AffectedTests

/-! ## Warnings -/

/-- Why a file cannot be loaded. -/
inductive LoadFault
  | unsupported
  | disk (error : DiskError)
  deriving DecidableEq

def LoadFault.wording : LoadFault → String
  | .unsupported => "unsupported file type"
  | .disk error => error.wording

/-- What was passed over. -/
inductive Warning
  | notLoaded (path : Text) (fault : LoadFault)
  | notRead (path : Text) (error : DiskError)
  | notFollowed (failure : Failure)

/-- The number of the operating system for an error. -/
def DiskError.number : DiskError → Nat
  | .missing => 2
  | .occupied => 17
  | .isDirectory => 21
  | .notDirectory => 20
  | .nameTooLong => 36

def Warning.message : Warning → Text
  | .notLoaded path fault => "Could not load " ++ path ++ (": " : Text) ++ Text.ofString fault.wording
  | .notRead path error =>
    "Could not read " ++ path ++ (": [Errno " : Text) ++ Text.ofNat error.number ++ ("] " : Text) ++
      Text.ofString error.wording ++ (": " : Text) ++ Text.shown path
  | .notFollowed failure => failure.summary

/-! ## Sessions and their views -/

/-- What an analysis has seen so far. -/
structure Session where
  sources : Table Text Bytes := []
  files : Table Text SourceFile := []
  listing : Option (List Text) := none
  /-- Resolved imports, by directory and specifier. -/
  imports : Table (Text × Text) (Option Text) := []
  warnings : List Warning := []

namespace Session

/-- The bytes of a file: as they were when the file was first read. -/
def bytesOf (s : Session) (w : Workspace) (path : Text) : Except DiskError Bytes :=
  match s.sources.get? path with
  | some bytes => .ok bytes
  | none => w.disk.read path

/-- A source file: as it was when it was first read. -/
def fileOf (s : Session) (w : Workspace) (path : Text) : Except LoadFault SourceFile :=
  match s.files.get? path with
  | some file => .ok file
  | none =>
    match Language.ofPath? path with
    | none => .error .unsupported
    | some language =>
      match s.bytesOf w path with
      | .error e => .error (.disk e)
      | .ok bytes => .ok ⟨path, language, bytes, w.grammars language bytes⟩

/-- The source files of the project: as they were when they were first listed. -/
def listingOf (s : Session) (w : Workspace) : Except Failure (List Text) :=
  match s.listing with
  | some files => .ok files
  | none => w.sourceFiles

/-- Where an import leads: as it did when it was first resolved. -/
def importOf (s : Session) (w : Workspace) (directory specifier : Text) : Option Text :=
  match s.imports.get? (directory, specifier) with
  | some answer => answer
  | none => w.resolveImport directory specifier

/-! ## Noting and forgetting -/

def noteBytes (s : Session) (path : Text) (bytes : Bytes) : Session :=
  { s with sources := s.sources.put path bytes }

def noteFile (s : Session) (file : SourceFile) : Session :=
  { s with files := s.files.put file.path file, sources := s.sources.put file.path file.source }

def noteImport (s : Session) (directory specifier : Text) (answer : Option Text) : Session :=
  { s with imports := s.imports.put (directory, specifier) answer }

/-- Forgets one file; resolved imports and the list of files are kept. -/
def forget (s : Session) (path : Text) : Session :=
  { s with files := s.files.erase path, sources := s.sources.erase path }

/-- Forgets all files; resolved imports and the list of files are kept. -/
def forgetAll (s : Session) : Session :=
  { s with files := [], sources := [] }

end Session

/-! ## Queries -/

/-- A question to a workspace in a session. It may fail, and it keeps what it has seen if it does. -/
abbrev Query := ReaderT Workspace (ExceptT Failure (StateM Session))

namespace Query

/-- The answer of a query and the session after it. -/
def ask {α : Type} (q : Query α) (w : Workspace) (s : Session) : Except Failure α × Session :=
  (q.run w).run.run s

def ofExcept {α : Type} : Except Failure α → Query α
  | .ok a => pure a
  | .error e => throw e

def warn (warning : Warning) : Query Unit :=
  modify fun s => { s with warnings := s.warnings ++ [warning] }

/-- The absolute path of a file, which has to have a possible name. -/
def locate (path : Text) : Query Text :=
  match Path.resolve path with
  | .ok key => pure key
  | .error fault => throw (.badName fault)

/-- The bytes at an absolute path. -/
def bytesAt (path : Text) : Query (Except DiskError Bytes) := do
  match (← get).bytesOf (← read) path with
  | .ok bytes =>
    modify fun s => s.noteBytes path bytes
    return .ok bytes
  | .error e => return .error e

/-- A source file. One that cannot be read, or that there is no grammar for, is passed over with a
warning. -/
def load (path : Text) : Query (Option SourceFile) := do
  let key ← locate path
  match (← get).fileOf (← read) key with
  | .ok file =>
    modify fun s => s.noteFile file
    return some file
  | .error fault =>
    warn (.notLoaded path fault)
    return none

/-- The source files of the project. -/
def listing : Query (List Text) := do
  let files ← ofExcept ((← get).listingOf (← read))
  modify fun s => { s with listing := some files }
  return files

/-- The file that a specifier names when a file imports it. -/
def resolve (importer specifier : Text) : Query (Option Text) := do
  let directory := Path.directory (← locate importer)
  let answer := (← get).importOf (← read) directory specifier
  modify fun s => s.noteImport directory specifier answer
  return answer

/-- The word that every import of a module contains: the stem of its file name, or the name of its
directory if it is an index file. -/
def moduleWord (path : Text) : Text :=
  let stem := Path.stem (Path.fileName path)
  if stem = "index" then Path.fileName (Path.directory path) else stem

/-- Visits the files of the project other than a module whose text contains the module's word, in the
order of the listing, and collects what the visits give. A file that cannot be read is passed over with
a warning. -/
def visitMentioning {α : Type} (module_ : Text) (visit : SourceFile → Query (List α)) :
    Query (List α) := do
  match Utf8.encode (moduleWord module_) with
  | none => throw .unencodable
  | some word =>
    let found ← (← listing).mapM fun path => do
      if path = module_ then return []
      match ← bytesAt path with
      | .error e =>
        warn (.notRead path e)
        return []
      | .ok bytes =>
        if word.occursIn bytes then
          match ← load path with
          | some file => visit file
          | none => return []
        else return []
    return found.flatten

end Query

end AffectedTests
