import AffectedTests.Disk.Basic
import AffectedTests.Json.Display
import AffectedTests.Json.Reader
import AffectedTests.Settings.Basic
import AffectedTests.Text.Lines
/-!
# Loading settings

Settings come from a JSON object whose keys are fields. A field that is not given keeps its default; a
key that is no field and a value of the wrong kind are refused.
-/

namespace AffectedTests

namespace Settings

/-- Why settings cannot be loaded. -/
inductive LoadError
  | fileNotFound (path : Text)
  | undecodable
  | exceeds (limit : Limit)
  | unreadable (path : Text) (fault : Json.Fault) (source : Text)
  | notAnObject (path : Text)
  | unknownKeys (path : Text) (keys : List Text)
  | badDepth (value : Json)
  | badList (key : Text)

namespace LoadError

/-- The message of an error up to the cause that another reader gave. -/
def summary : LoadError → Text
  | .fileNotFound path => "Configuration file not found: " ++ path
  | .undecodable => "Configuration is not UTF-8"
  | .exceeds limit => limit.wording
  | .unreadable path _ _ => "Could not read configuration " ++ path ++ ": "
  | .notAnObject path => "Configuration " ++ path ++ " must be a JSON object"
  | .unknownKeys path keys =>
    "Unknown configuration keys in " ++ path ++ ": " ++ Text.join ", " keys
  | .badDepth value => "max_depth must be a non-negative integer, got " ++ value.shown
  | .badList key => key ++ (" must be a list of strings" : Text)

/-- The whole message of an error. -/
def message (e : LoadError) : Text :=
  match e with
  | .unreadable _ fault source => e.summary ++ fault.message source
  | _ => e.summary

end LoadError

/-! ## Values -/

/-- A depth that a settings file may give. -/
def depth? : Json → Option Int
  | .integer i => if 0 ≤ i then some i else none
  | _ => none

/-- A list of texts. -/
def texts? : Json → Option (List Text)
  | .array items => items.mapM fun
    | .text t => some t
    | _ => none
  | _ => none

/-- The settings with one field taken from an entry. -/
def setEntry (s : Settings) (key : Text) (value : Json) : Except LoadError Settings :=
  match ListField.ofKey? key with
  | some field =>
    match texts? value with
    | some texts => .ok (s.setList field texts)
    | none => .error (.badList key)
  | none =>
    match depth? value with
    | some depth => .ok { s with maxDepth := depth }
    | none => .error (.badDepth value)

/-- Whether a key is a field. -/
def isKey (key : Text) : Bool :=
  key = depthKey || (ListField.ofKey? key).isSome

/-- The settings that a value gives. All keys are checked before any value. -/
def ofJson (path : Text) : Json → Except LoadError Settings
  | .object entries =>
    let unknown := (entries.map (·.1)).filter fun key => !isKey key
    if unknown = [] then entries.foldlM (fun s (key, value) => s.setEntry key value) {}
    else .error (.unknownKeys path (unknown.mergeSort Text.le))
  | _ => .error (.notAnObject path)

/-- The settings that the bytes of a file give. -/
def ofBytes (path : Text) (bytes : Bytes) : Except LoadError Settings :=
  match Utf8.decode bytes with
  | none => .error .undecodable
  | some text =>
    let source := text.plainLineFeeds
    match Json.read source with
    | .error (.malformed fault) => .error (.unreadable path fault source)
    | .error (.exceeds limit) => .error (.exceeds limit)
    | .ok value => ofJson path value

/-! ## Files -/

/-- The name of the settings file of a repository. -/
def fileName : Text := ".testimpact.json"

/-- Loads the settings of a repository: from the file that is named, which has to exist, or else from
the repository's own settings file, if it has one. Relative paths start from a directory. -/
def load (disk : Disk) (directory repository : Text) (named : Option Text) :
    Except LoadError Settings :=
  let named := named.filter fun path => path ≠ []
  let path := named.getD (Path.join repository fileName)
  match disk.read (Path.join directory path), named with
  | .ok bytes, _ => ofBytes path bytes
  | .error _, some path => .error (.fileNotFound path)
  | .error _, none => .ok {}

end Settings

end AffectedTests
