import AffectedTests.Source.Declaration
import AffectedTests.Source.Tests
/-!
# References

References are found by name. A function, class or variable is referred to by its uses in its own
module, by the imports that bind it elsewhere, and as a member of an imported namespace; imports are
followed through modules that export it again. A method or field is referred to as a member of anything,
in its own module and in the modules that see its class.
-/

namespace AffectedTests

/-- A place where a declaration is used or imported. -/
structure Reference where
  file : Text
  line : Int
  node : Cursor
  /-- The name that an import binds the declaration to; none if the place is a use. -/
  binding : Option Text

namespace Reference

/-- A use of a name at a node. -/
def use (file : Text) (c : Cursor) : Reference :=
  ⟨file, c.startLine, c, none⟩

/-- An import at a node that binds a name at another one. -/
def import? (file : Text) (at_ name : Cursor) : Except Failure Reference :=
  name.text.map fun binding => ⟨file, at_.startLine, name, some binding⟩

end Reference

/-! ## Uses of a name -/

namespace Cursor

/-- Whether a node names a declaration or a parameter instead of using it. -/
def isBinding (c : Cursor) : Bool :=
  match c.parent? with
  | none => false
  | some parent =>
    match parent.kind with
    | .requiredParameter | .optionalParameter | .formalParameters => true
    | .arrowFunction => (parent.child? .parameter).any c.same
    | kind =>
      ((DeclarationKind.ofKind? kind).isSome || kind = .functionSignature) &&
        (parent.child? .name).any c.same

end Cursor

/-- The kinds of nodes that are identifiers. -/
def Kind.isIdentifier (k : Kind) : Bool :=
  k = .identifier || k = .typeIdentifier || k = .shorthandPropertyIdentifier

namespace Tree

mutual

/-- The identifiers in a tree that use a name, in document order; imports and comments hold none. -/
def usesOf (name : Bytes) (above : List Tree) : Tree → List Cursor
  | .node info children =>
    if info.kind = .importStatement ∨ info.kind = .comment then []
    else if info.kind.isIdentifier then
      let c : Cursor := ⟨.node info children, above⟩
      if info.text = name ∧ c.isBinding = false then [c] else []
    else usesOfAll name (.node info children :: above) children

def usesOfAll (name : Bytes) (above : List Tree) : List Tree → List Cursor
  | [] => []
  | t :: rest => usesOf name above t ++ usesOfAll name above rest

end

end Tree

namespace SourceFile

/-- The bytes of a name. -/
def nameBytes (name : Text) : Except Failure Bytes :=
  match Utf8.encode name with
  | some bytes => .ok bytes
  | none => .error .unencodable

/-- The identifiers of a file that use a name, in document order. -/
def identifierUses (f : SourceFile) (name : Text) : Except Failure (List Cursor) :=
  (nameBytes name).map fun bytes =>
    if bytes.occursIn f.source then f.tree.usesOf bytes [] else []

/-- The property of a member expression, if it has a given name. -/
def accessOf? (name : Bytes) (c : Cursor) : Option Cursor :=
  if c.kind = .memberExpression then
    (c.child? .property).filter fun property => property.info.text = name
  else none

/-- The properties of member expressions with a name, each expression before those inside it. -/
def memberAccesses (f : SourceFile) (name : Text) : Except Failure (List Cursor) :=
  (nameBytes name).map fun bytes =>
    if bytes.occursIn f.source then f.top.preorder.filterMap (accessOf? bytes) else []

/-- Whether the object of the member expression around a property is a given identifier. -/
def isMemberOf (object : Text) (property : Cursor) : Except Failure Bool := do
  match property.parent?.bind fun e => e.child? .object with
  | none => return false
  | some c => if c.kind = .identifier then return (← c.text) == object else return false

/-- The properties with a name of a given object. -/
def accessesOf (f : SourceFile) (object name : Text) : Except Failure (List Cursor) := do
  (← f.memberAccesses name).filterM (isMemberOf object)

end SourceFile

namespace Query

/-- The uses of a name in the file at a path. -/
def localReferences (path name : Text) : Query (List Reference) := do
  match ← load path with
  | none => return []
  | some file => return (← ofExcept (file.identifierUses name)).map (Reference.use file.path)

/-! ## Imports of a module -/

/-- Whether a statement names a module as its source. -/
def hasSource (file module_ : Text) (statement : Cursor) : Query Bool := do
  match statement.child? .source with
  | none => return false
  | some source =>
    let specifier ← ofExcept (Literal.value source.tree)
    return (← resolve file specifier) = some module_

/-- The references of one child of an import clause to an export of the imported module. -/
def clauseReferences (file : SourceFile) (exported : Text) (c : Cursor) :
    Except Failure (List Reference) :=
  match c.kind with
  | .identifier =>
    if exported = Tree.defaultName then (Reference.import? file.path c c).map ([·]) else .ok []
  | .namedImports =>
    ((c.namedChildren.filter fun s => s.kind = .importSpecifier).mapM specifier).map List.flatten
  | .namespaceImport =>
    match c.namedChildren.find? fun n => n.kind = .identifier with
    | none => .ok []
    | some name =>
      if exported = Tree.defaultName then .ok []
      else do
        let accesses ← file.accessesOf (← name.text) exported
        return accesses.map (Reference.use file.path)
  | _ => .ok []
where
  /-- The reference of an import specifier. -/
  specifier (s : Cursor) : Except Failure (List Reference) := do
    match s.child? .name with
    | none => return []
    | some name =>
      if (← name.text) = exported then
        return [← Reference.import? file.path s ((s.child? .alias).getD name)]
      else return []

/-- The references of an import statement to an export of the imported module. -/
def statementReferences (file : SourceFile) (exported : Text) (statement : Cursor) :
    Except Failure (List Reference) :=
  match statement.namedChildren.find? fun c => c.kind = .importClause with
  | none => .ok []
  | some clause => (clause.namedChildren.mapM (clauseReferences file exported)).map List.flatten

/-- The references to an export of a module in the files that import the module: the names that imports
bind it to, and its uses as a member of the imported namespace. -/
def importerReferences (module_ exported : Text) : Query (List Reference) :=
  visitMentioning module_ fun file => do
    let found ← (file.top.namedChildren.filter fun s => s.kind = .importStatement).mapM fun s => do
      if ← hasSource file.path module_ s then ofExcept (statementReferences file exported s)
      else return []
    return found.flatten

/-- Whether a file imports a module. -/
def importsModule (file : SourceFile) (module_ : Text) : Query Bool :=
  (file.top.namedChildren.filter fun s => s.kind = .importStatement).anyM (hasSource file.path module_)

/-! ## Exports of exports -/

/-- A module and a name that it exports. -/
abbrev Export := Text × Text

/-- The names under which an export statement with a source passes an export of that source on. A
statement without a clause passes everything on but the default; one that makes a namespace passes
nothing on. -/
def passedOn (exported : Text) (statement : Cursor) : Except Failure (List Text) :=
  if statement.namedChildren.any fun c => c.kind = .namespaceExport then .ok []
  else
    match (statement.namedChildren.filter fun c => c.kind = .exportClause).getLast? with
    | none => .ok (if exported = Tree.defaultName then [] else [exported])
    | some clause => clause.tree.exportSpecifiers.map fun specifiers =>
        (specifiers.filter fun s => s.1 = exported).map (·.2)

/-- The exports that pass one export on, file by file. -/
def exportsOf (e : Export) : Query (List Export) :=
  visitMentioning e.1 fun file => do
    let found ← (file.top.namedChildren.filter fun s => s.kind = .exportStatement).mapM fun s => do
      if ← hasSource file.path e.1 s then
        return (← ofExcept (passedOn e.2 s)).map (file.path, ·)
      else return []
    return found.flatten

/-- Adds the exports that are not known yet to those that are known and to those that are waiting; the
last one waits on top. -/
def enterExports (found known waiting : List Export) : List Export × List Export :=
  found.foldl (fun (known, waiting) e =>
    if known.contains e then (known, waiting) else (known ++ [e], e :: waiting)) (known, waiting)

/-- Follows the exports that are waiting until none is left. -/
def followExports : (fuel : Nat) → (known waiting : List Export) → Query (List Export)
  | 0, known, _ => return known
  | _ + 1, known, [] => return known
  | fuel + 1, known, e :: waiting => do
    let (known, waiting) := enterExports (← exportsOf e) known waiting
    followExports fuel known waiting

/-- The export specifiers of a file. -/
def specifiers (file : SourceFile) : List Cursor :=
  file.top.preorder.filter fun c => c.kind = .exportSpecifier

/-- A bound on the number of exports that can be found from some: every one of them is of one of the
known modules, and has the name of one of them or of a specifier. -/
def exportBound (w : Workspace) (s : Session) (start : List Export) : Nat :=
  let listed := (s.listingOf w).toOption.getD []
  let files := listed.filterMap fun path => (s.fileOf w path).toOption
  (files.length + start.length) * (start.length + (files.flatMap specifiers).length) + 1

/-- All modules and names through which a declaration can be imported, in order. -/
def exports (d : Declaration) : Query (List Export) := do
  let start := (← ofExcept d.exportNames).map (d.file, ·)
  let bound := exportBound (← read) (← get) start
  let known ← followExports bound start start.reverse
  return known.mergeSort precedes
where
  /-- By module, then by name. -/
  precedes (a b : Export) : Bool :=
    if a.1 = b.1 then Text.le a.2 b.2 else Text.le a.1 b.1

/-! ## References to a declaration -/

/-- The references to a function, class or variable. -/
def symbolReferences (d : Declaration) : Query (List Reference) := do
  let inside ← localReferences d.file d.name
  let outside ← (← exports d).mapM fun e => importerReferences e.1 e.2
  return inside ++ outside.flatten

/-- The files that import a class. -/
def binders (owner : Declaration) : Query (List Text) := do
  let found ← (← exports owner).mapM fun e => importerReferences e.1 e.2
  return distinct (found.flatten.map (·.file))

/-- The files that import one of the given modules, other than the files known before. Instances of a
class reach them without an import of the class. -/
def extendByImporters (modules known : List Text) : Query (List Text) :=
  modules.foldlM (fun known module_ => do
    let found ← visitMentioning module_ fun file => do
      if known.contains file.path then return []
      else if ← importsModule file module_ then return [file.path]
      else return []
    return known ++ found) known

/-- The references to a method or field. -/
def memberReferences (d : Declaration) : Query (List Reference) := do
  let candidates ←
    match ← ofExcept d.enclosingClass? with
    | none => pure [d.file]
    | some owner => do
      let binders ← binders owner
      let settings := (← read).settings
      extendByImporters (binders.filter fun b => !settings.isTestFile b) (d.file :: binders)
  let found ← candidates.mapM fun path => do
    match ← load path with
    | none => return []
    | some file => return (← ofExcept (file.memberAccesses d.name)).map (Reference.use file.path)
  return found.flatten

/-- Reports the failures of a look-up as unresolved references to a declaration. -/
def guarded {α : Type} (d : Declaration) (q : Query α) : Query α :=
  tryCatch q fun failure =>
    throw (if failure.isOfLookup then .unresolved d.name d.file failure else failure)

/-- All uses and imports of a declaration in the project. -/
def references (d : Declaration) : Query (List Reference) :=
  guarded d (if d.kind.isMember then memberReferences d else symbolReferences d)

end Query

end AffectedTests
