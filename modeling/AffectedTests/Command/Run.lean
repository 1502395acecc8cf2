import AffectedTests.Analysis
import AffectedTests.Command.Options
import AffectedTests.Commit
import AffectedTests.Diff.Reader
import AffectedTests.Report.Basic
import AffectedTests.Settings.Load
/-!
# Runs

A run finds the settings, the change of a commit and the tests it affects, and reports them. What stands
in its way is either told to the user or ends the run as a failure.
-/

namespace AffectedTests

namespace Command

/-! ## Findings -/

/-- What a run is given besides its options. -/
structure Surroundings where
  /-- The directory that relative paths start from. -/
  directory : Text
  disk : Disk
  grammars : Language → Bytes → Tree
  /-- The repository whose files are in a directory. -/
  repositoryAt? : Text → Option Repository

/-- What keeps a run from an analysis. -/
inductive Obstacle
  | noDirectory (path : Text)
  | settings (error : Settings.LoadError)
  | change (error : ChangeError)
  | failure (cause : Failure)

/-- What a run has found. -/
structure Findings where
  repository : Text
  analysis : Analysis
  warnings : List Text

/-- The absolute path of the directory of a repository. -/
def directoryOf (s : Surroundings) (path : Text) : Except Obstacle Text :=
  match Path.resolve (Path.join s.directory path) with
  | .error fault => .error (.failure (.badName fault))
  | .ok found =>
    match s.disk.lookup found with
    | .ok (.directory _) => .ok found
    | .error .nameTooLong => .error (.failure (.disk .nameTooLong))
    | _ => .error (.noDirectory path)

/-- The settings of a run. -/
def settingsOf (s : Surroundings) (o : Options) (repository : Text) : Except Obstacle Settings :=
  match Settings.load s.disk s.directory repository o.config with
  | .error .undecodable => .error (.failure .undecodable)
  | .error (.exceeds limit) => .error (.failure (.exceeds limit))
  | .error e => .error (.settings e)
  | .ok settings => .ok (settings.withOverrides { maxDepth := o.maxDepth })

/-- The change to be analysed. -/
def changeOf (s : Surroundings) (o : Options) (repository : Text) : Except Obstacle Text :=
  match s.repositoryAt? repository with
  | none => .error (.change (.noRepository repository))
  | some r => (r.change o.commit).mapError .change

/-- The analysis of a diff. One that cannot be read has no impacts. -/
def analysisOf (w : Workspace) (diff : Text) : Analysis :=
  match Diff.parse diff with
  | .ok ds => w.analyze ds
  | .error limit => { impacts := .error (.exceeds limit) }

/-- Finds the tests that a commit affects. -/
def examine (s : Surroundings) (o : Options) : Except Obstacle Findings := do
  let repository ← directoryOf s o.repository
  let settings ← settingsOf s o repository
  let diff ← changeOf s o repository
  let analysis := analysisOf ⟨repository, settings, s.grammars, s.disk⟩ diff
  return ⟨repository, analysis,
    (Diff.conflicts diff).map Diff.Conflict.message ++ analysis.warnings.map Warning.message⟩

/-! ## Output -/

/-- How a run ends. -/
inductive Ending
  | success
  | usage (error : UsageError)
  /-- The user was told why there is no result. -/
  | refused
  | failed (cause : Failure)

/-- The exit status. -/
def Ending.status : Ending → Nat
  | .success => 0
  | .usage _ => 2
  | .refused | .failed _ => 1

/-- How a run ends whose arguments are refused. -/
def ArgumentError.ending : ArgumentError → Ending
  | .usage error => .usage error
  | .badName fault => .failed (.badName fault)

/-- What a run prints, what it warns of, and how it ends. -/
structure Outcome where
  output : Text := []
  warnings : List Text := []
  ending : Ending

/-- Prints lines until one fails; a line that has no bytes fails too. -/
def print : List (Except Failure Text) → Text × Ending
  | [] => ([], .success)
  | .error cause :: _ => ([], .failed cause)
  | .ok line :: rest =>
    let shown := Markup.plain line
    match Utf8.encode shown with
    | none => ([], .failed .unencodable)
    | some _ =>
      let (later, ending) := print rest
      (shown ++ ("\n" : Text) ++ later, ending)

/-- Tells the user why there is no result. -/
def refuse (message : Text) : Outcome :=
  match print [.ok (Report.styled "red" "❌ Error:" ++ (" " : Text) ++ Markup.escape message)] with
  | (output, .success) => ⟨output, [], .refused⟩
  | (output, ending) => ⟨output, [], ending⟩

/-- The outcome of a run that does not come to an analysis. -/
def Obstacle.outcome : Obstacle → Outcome
  | .noDirectory path => refuse ("Repository path not found: " ++ path)
  | .settings error => refuse error.message
  | .change error => refuse error.message
  | .failure cause => ⟨[], [], .failed cause⟩

/-- The outcome of an analysis that took some time. -/
def Findings.outcome (f : Findings) (o : Options) (milliseconds : Nat) : Outcome :=
  match f.analysis.impacts with
  | .error cause => ⟨[], f.warnings, .failed cause⟩
  | .ok impacts =>
    let report : Report := ⟨o.commit, f.repository, milliseconds, impacts⟩
    if o.json then ⟨report.toJson.write ++ ("\n" : Text), f.warnings, .success⟩
    else
      let chain (i : Impact) := if o.explain then f.analysis.chain f.repository i else .ok []
      let (output, ending) := print (report.lines chain)
      ⟨output, f.warnings, ending⟩

/-- What a run prints when it is asked how to use it. -/
def help : Text :=
  "Finds the tests affected by a commit.\n\n" ++
  ("  --repo PATH        the git repository\n" : Text) ++
  ("  --commit NAME      the commit\n" : Text) ++
  ("  --json             print JSON\n" : Text) ++
  ("  --config PATH      the settings file\n" : Text) ++
  ("  --max-depth N      how many hops to follow\n" : Text) ++
  ("  --explain          show the chain behind each indirect impact\n" : Text) ++
  ("  --verbose, -v      say more\n" : Text)

/-- A run with some arguments, which takes no time. -/
def run (s : Surroundings) (arguments : List Text) : Outcome :=
  match Request.ofArguments arguments with
  | .error error => ⟨[], [], error.ending⟩
  | .ok .help => ⟨help, [], .success⟩
  | .ok (.run options) =>
    match examine s options with
    | .error obstacle => obstacle.outcome
    | .ok findings => findings.outcome options 0

end Command

end AffectedTests
