import AffectedTests.Path.Basic
import AffectedTests.Text.Lowercase
/-!
# Settings

What counts as a test file, as a source file and as a file that concerns every test, how far references
are followed, and which calls and directories matter.
-/

namespace AffectedTests

/-- The settings of an analysis. -/
structure Settings where
  /-- Ends of the names of test files. -/
  testFileSuffixes : List Text :=
    [".spec.ts", ".spec.tsx", ".test.ts", ".test.tsx", ".spec.js", ".test.js"]
  /-- Extensions of source files, in the order in which imports try them. -/
  sourceExtensions : List Text :=
    [".ts", ".tsx", ".mts", ".cts", ".js", ".jsx", ".mjs", ".cjs"]
  /-- Ends of the names of files whose change concerns every test. -/
  globalConfigFiles : List Text :=
    ["playwright.config.ts", "package.json", "global-setup.ts"]
  /-- The functions that declare tests and suites. -/
  testKeywords : List Text := ["test", "it", "describe"]
  /-- How many references may lie between a change and a test. -/
  maxDepth : Int := 5
  /-- Names of directories that are never searched. -/
  ignoredDirectories : List Text :=
    ["node_modules", ".git", "dist", "build", "coverage", "playwright-report", "test-results"]

namespace Settings

def isTestFile (s : Settings) (path : Text) : Bool :=
  s.testFileSuffixes.any path.endsWith

/-- Extensions are compared in lower case. -/
def isSourceFile (s : Settings) (path : Text) : Bool :=
  s.sourceExtensions.contains (Path.extension path).lower

def isGlobalFile (s : Settings) (path : Text) : Bool :=
  s.globalConfigFiles.any path.endsWith

/-- The fields that hold lists of texts. -/
inductive ListField
  | testFileSuffixes
  | sourceExtensions
  | globalConfigFiles
  | testKeywords
  | ignoredDirectories
  deriving DecidableEq

namespace ListField

def all : List ListField :=
  [.testFileSuffixes, .sourceExtensions, .globalConfigFiles, .testKeywords, .ignoredDirectories]

/-- The key of a field in a settings file. -/
def key : ListField → Text
  | .testFileSuffixes => "test_file_suffixes"
  | .sourceExtensions => "source_extensions"
  | .globalConfigFiles => "global_config_files"
  | .testKeywords => "test_keywords"
  | .ignoredDirectories => "ignored_directories"

/-- The field with a key. -/
def ofKey? (key : Text) : Option ListField :=
  all.find? fun field => field.key = key

end ListField

/-- The key of the greatest depth in a settings file. -/
def depthKey : Text := "max_depth"

/-- The value of a list field. -/
def list (s : Settings) : ListField → List Text
  | .testFileSuffixes => s.testFileSuffixes
  | .sourceExtensions => s.sourceExtensions
  | .globalConfigFiles => s.globalConfigFiles
  | .testKeywords => s.testKeywords
  | .ignoredDirectories => s.ignoredDirectories

/-- The settings with another value in a list field. -/
def setList (s : Settings) (field : ListField) (value : List Text) : Settings :=
  match field with
  | .testFileSuffixes => { s with testFileSuffixes := value }
  | .sourceExtensions => { s with sourceExtensions := value }
  | .globalConfigFiles => { s with globalConfigFiles := value }
  | .testKeywords => { s with testKeywords := value }
  | .ignoredDirectories => { s with ignoredDirectories := value }

/-- Settings given by hand, which go before those of a file; what is not given stays. -/
structure Overrides where
  lists : List (ListField × List Text) := []
  maxDepth : Option Int := none

def withOverrides (s : Settings) (o : Overrides) : Settings :=
  let s := o.lists.foldl (fun s (field, value) => s.setList field value) s
  { s with maxDepth := o.maxDepth.getD s.maxDepth }

end Settings

end AffectedTests
