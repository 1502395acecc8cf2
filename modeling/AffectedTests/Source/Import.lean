import AffectedTests.Source.Workspace
/-!
# Import specifiers

A specifier names a file: relative to the importing file when it begins with a dot, from the disk's
root when it begins with a separator, and from the project's root otherwise. The file may be named with
or without its extension, by the extension of its compiled form, or as a directory with an index file.
Only files of the project count.
-/

namespace AffectedTests

namespace Import

/-- The extensions of sources behind the extension of a compiled file. -/
def sourcesOf : List (Text × List Text) :=
  [(".js", [".ts", ".tsx"]), (".mjs", [".mts"]), (".cjs", [".cts"]), (".jsx", [".tsx"])]

/-- Where a specifier points before anything is looked up. -/
def base (root directory specifier : Text) : Text :=
  Path.normalize <|
    if specifier.startsWith "." then Path.join directory specifier
    else if Path.isAbsolute specifier then specifier
    else Path.join root specifier

/-- The paths that a base may stand for, in the order in which they are tried. -/
def candidates (extensions : List Text) (base : Text) : List Text :=
  let extension := (Path.extension base).lower
  (if extensions.contains extension then [base] else []) ++
    ((sourcesOf.lookup extension).getD []).map (Path.stem base ++ ·) ++
    extensions.map (base ++ ·) ++
    extensions.map fun extension => Path.join base ("index" ++ extension)

end Import

/-- The file that a specifier names when it is imported from a directory. The first candidate that is a
file decides, also when it is no file of the project. -/
def Workspace.resolveImport (w : Workspace) (directory specifier : Text) : Option Text :=
  if specifier = [] then none
  else
    match (Import.candidates w.settings.sourceExtensions
        (Import.base w.root directory specifier)).find? w.disk.isFile with
    | none => none
    | some candidate =>
      match Path.resolve candidate with
      | .ok path => if w.holds path then some path else none
      | .error _ => none

end AffectedTests
