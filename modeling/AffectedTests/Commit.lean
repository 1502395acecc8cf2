import AffectedTests.Text.Basic
/-!
# Commits

A repository finds commits by name and shows the difference between two of them. A change is the
difference between a commit and its first parent, without lines of context; a commit without a parent is
no change.
-/

namespace AffectedTests

/-- A commit: its own name in full and the names of its parents. -/
structure Commit where
  name : Text
  parents : List Text

/-- Why a name leads to no commit. -/
inductive Commit.Fault
  /-- More than one commit goes by the name. -/
  | ambiguous
  | unknown
  deriving DecidableEq

/-- A repository, by what it answers. -/
structure Repository where
  /-- The directory of its files. -/
  root : Text
  find : Text → Except Commit.Fault Commit
  /-- The difference that some arguments ask for, or an account of what went wrong. -/
  diff : List Text → Except Text Text

/-- Why there is no change to analyse. -/
inductive ChangeError
  | noRepository (path : Text)
  | ambiguous (commit : Text)
  | unknown (commit : Text)
  | noParent (commit : Text)
  | noDiff (commit cause : Text)
  deriving DecidableEq

namespace ChangeError

/-- The message of an error up to the cause that a repository gave. -/
def summary : ChangeError → Text
  | .noRepository path => "Not a git repository: " ++ path
  | .ambiguous commit => "Ambiguous commit " ++ commit
  | .unknown commit => "Unknown commit " ++ commit
  | .noParent commit => "Commit " ++ commit ++ (" has no parent to diff against" : Text)
  | .noDiff commit _ => "git diff failed for " ++ commit ++ (": " : Text)

/-- The whole message of an error. -/
def message (e : ChangeError) : Text :=
  match e with
  | .noDiff _ cause => e.summary ++ cause
  | _ => e.summary

end ChangeError

namespace Repository

/-- The arguments that ask for a difference without context, in plain text. -/
def diffArguments (parent commit : Text) : List Text :=
  ["-U0", "--no-color", "--no-ext-diff", parent, commit]

/-- The arguments that ask for the change that a commit makes. -/
def changeArguments (r : Repository) (name : Text) : Except ChangeError (List Text) :=
  match r.find name with
  | .error .ambiguous => .error (.ambiguous name)
  | .error .unknown => .error (.unknown name)
  | .ok commit =>
    match commit.parents with
    | [] => .error (.noParent name)
    | parent :: _ => .ok (diffArguments parent commit.name)

/-- The change that a commit makes, as a diff. -/
def change (r : Repository) (name : Text) : Except ChangeError Text :=
  match r.changeArguments name with
  | .error e => .error e
  | .ok arguments =>
    match r.diff arguments with
    | .ok diff => .ok diff
    | .error cause => .error (.noDiff name cause)

end Repository

end AffectedTests
