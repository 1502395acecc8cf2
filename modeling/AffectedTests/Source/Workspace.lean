import AffectedTests.Disk.Listing
import AffectedTests.Settings.Basic
import AffectedTests.Tree.Basic
/-!
# Workspaces

A workspace is what an analysis is given: the root of a project, its settings, the grammars and the
disk. Everything a query can find is a function of the workspace alone.
-/

namespace AffectedTests

/-! ## Languages -/

/-- The languages that there are grammars for. -/
inductive Language
  | typescript
  | tsx
  | javascript
  deriving DecidableEq

namespace Language

def name : Language → String
  | .typescript => "typescript"
  | .tsx => "tsx"
  | .javascript => "javascript"

/-- The extensions of each language. -/
def byExtension : List (Text × Language) :=
  [(".ts", .typescript), (".mts", .typescript), (".cts", .typescript), (".tsx", .tsx),
    (".js", .javascript), (".jsx", .javascript), (".mjs", .javascript), (".cjs", .javascript)]

/-- The language of a file; extensions are compared in lower case. -/
def ofPath? (path : Text) : Option Language :=
  byExtension.lookup (Path.extension path).lower

end Language

/-! ## Workspaces -/

/-- What an analysis is given. -/
structure Workspace where
  /-- The absolute path of the project. -/
  root : Text
  settings : Settings
  /-- The tree of every source in every language. -/
  grammars : Language → Bytes → Tree
  disk : Disk

/-- A source file with its tree. -/
structure SourceFile where
  path : Text
  language : Language
  source : Bytes
  tree : Tree

/-- The root node of a file. -/
def SourceFile.top (f : SourceFile) : Cursor :=
  Cursor.ofRoot f.tree

namespace Workspace

/-- Whether a file of this name is listed: a source file that is more than type declarations. -/
def lists (w : Workspace) (name : Text) : Bool :=
  w.settings.isSourceFile name && !name.endsWith ".d.ts"

/-- The source files of the project, outside the directories to be ignored. -/
def sourceFiles (w : Workspace) : Except Failure (List Text) :=
  w.disk.filesBelow w.lists (fun name => !w.settings.ignoredDirectories.contains name) w.root

/-- Whether a path is the root or below it. -/
def holds (w : Workspace) (path : Text) : Bool :=
  path = w.root || path.startsWith (w.root ++ [Path.separator])

end Workspace

end AffectedTests
