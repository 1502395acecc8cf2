import AffectedTests.Path.Basic
import AffectedTests.Table
import AffectedTests.Text.Integer
/-!
# Options

The arguments of a run: options that take a value, which follows after an equals sign or as the next
argument, and switches. An option that is given twice counts as it was given last; two hyphens end the
options, and nothing may stand beside them. First the arguments are read to their end, then the values are
checked in the order in which their options first came, and last of all comes what is missing.
-/

namespace AffectedTests

namespace Command

/-! ## Names -/

/-- The options that take a value. -/
inductive Setting
  | repository
  | commit
  | config
  | maxDepth
  deriving DecidableEq

/-- The options that are on or off. -/
inductive Switch
  | json
  | explain
  | verbose
  | help
  deriving DecidableEq

def Setting.byName : List (Text × Setting) :=
  [("--repo", .repository), ("--commit", .commit), ("--config", .config), ("--max-depth", .maxDepth)]

def Switch.byName : List (Text × Switch) :=
  [("--json", .json), ("--explain", .explain), ("--verbose", .verbose), ("--help", .help)]

/-- The switches that have a letter as well; letters can share one hyphen. -/
def Switch.byLetter : List (CodePoint × Switch) :=
  [('v', .verbose)]

/-- What is wrong with some arguments. -/
inductive UsageError
  | unknownOption (name : Text)
  | missingValue (name : Text)
  | needlessValue (name : Text)
  | extraArgument (argument : Text)
  | missingOption (name : Text)
  | badDepth (value : Text)

def UsageError.message : UsageError → Text
  | .unknownOption name => "No such option: " ++ name
  | .missingValue name => "Option " ++ name ++ (" requires a value" : Text)
  | .needlessValue name => "Option " ++ name ++ (" takes no value" : Text)
  | .extraArgument argument => "Unexpected argument: " ++ argument
  | .missingOption name => "Missing option " ++ name
  | .badDepth value => "Not a depth: " ++ value

/-- Why arguments are refused. -/
inductive ArgumentError
  | usage (error : UsageError)
  /-- A path with a name that no file can have. -/
  | badName (fault : Path.NameFault)

/-! ## Arguments -/

/-- What the arguments give. -/
structure Given where
  settings : Table Setting Text := []
  switches : List Switch := []
  arguments : List Text := []

def hyphen : CodePoint := '-'

def assignment : CodePoint := '='

/-- The name of an option and the value after its equals sign. -/
def cut (argument : Text) : Text × Option Text :=
  let name : Text := argument.takeWhile fun c => c != assignment
  match argument.drop name.length with
  | [] => (name, none)
  | _ :: value => (name, some value)

/-- The switches of letters behind one hyphen. -/
def letters? (argument : Text) : Option (List Switch) :=
  match argument with
  | _ :: c :: rest => if c = hyphen then none else (c :: rest).mapM fun c => Switch.byLetter.lookup c
  | _ => none

namespace Given

def set (g : Given) (setting : Setting) (value : Text) : Given :=
  { g with settings := g.settings.put setting value }

def turnOn (g : Given) (switches : List Switch) : Given :=
  { g with switches := g.switches ++ switches }

def has (g : Given) (s : Switch) : Bool :=
  g.switches.contains s

/-- Takes a switch or a group of letters. -/
def takeSwitch (g : Given) (argument : Text) : Except UsageError Given :=
  let (name, value) := cut argument
  match Switch.byName.lookup name, value with
  | some s, none => .ok (g.turnOn [s])
  | some _, some _ => .error (.needlessValue name)
  | none, _ =>
    match letters? argument with
    | some switches => .ok (g.turnOn switches)
    | none => .error (.unknownOption name)

/-- Takes the arguments one after the other. -/
def take (g : Given) : List Text → Except UsageError Given
  | [] => .ok g
  | argument :: rest =>
    if argument = "--" then .ok { g with arguments := g.arguments ++ rest }
    else if argument.head? ≠ some hyphen ∨ argument.length ≤ 1 then
      take { g with arguments := g.arguments ++ [argument] } rest
    else
      match Setting.byName.lookup (cut argument).1, (cut argument).2 with
      | some setting, some value => take (g.set setting value) rest
      | some setting, none =>
        match rest with
        | value :: rest => take (g.set setting value) rest
        | [] => .error (.missingValue argument)
      | none, _ => do take (← g.takeSwitch argument) rest

end Given

/-! ## Options -/

/-- The options of a run. -/
structure Options where
  repository : Text
  commit : Text
  config : Option Text
  maxDepth : Option Int
  json : Bool
  explain : Bool
  verbose : Bool

/-- A depth that can be asked for. -/
def depth? (value : Text) : Option Int :=
  value.integer?.filter fun depth => 0 ≤ depth

/-- Checks the value of one option. A path has to be one that a disk can keep, whether it is there or
not. -/
def Setting.check (setting : Setting) (value : Text) : Except ArgumentError Unit :=
  match setting with
  | .repository | .config =>
    match Path.storedName value with
    | .ok _ => .ok ()
    | .error fault => .error (.badName fault)
  | .maxDepth => if (depth? value).isSome then .ok () else .error (.usage (.badDepth value))
  | .commit => .ok ()

/-- The options that are given, once their values are checked; two of them are required. -/
def Given.complete (g : Given) : Except UsageError Options :=
  match g.settings.get? .repository, g.settings.get? .commit, g.arguments with
  | none, _, _ => .error (.missingOption "--repo")
  | _, none, _ => .error (.missingOption "--commit")
  | _, _, argument :: _ => .error (.extraArgument argument)
  | some repository, some commit, [] =>
    .ok ⟨repository, commit, g.settings.get? .config, (g.settings.get? .maxDepth).bind depth?,
      g.has .json, g.has .explain, g.has .verbose⟩

/-- The options that arguments give. -/
def Given.options (g : Given) : Except ArgumentError Options := do
  g.settings.forM fun (setting, value) => setting.check value
  g.complete.mapError .usage

/-- What is asked for: a run, or help. -/
inductive Request
  | help
  | run (options : Options)

/-- What some arguments ask for. -/
def Request.ofArguments (arguments : List Text) : Except ArgumentError Request := do
  let given ← (({} : Given).take arguments).mapError .usage
  if given.has .help then return .help else return .run (← given.options)

end Command

end AffectedTests
