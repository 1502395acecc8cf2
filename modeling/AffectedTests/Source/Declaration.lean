import AffectedTests.Distinct
import AffectedTests.Source.Session
/-!
# Declarations

A declaration is a node that gives a function, class, method, field or variable a name. Declarations
nest; the ones that other modules can see are the exported ones at the top level of a module and, of an
exported class, the members that are not private.
-/

namespace AffectedTests

/-- What a declaration declares. -/
inductive DeclarationKind
  | function
  | classLike
  | method
  | field
  | variable
  deriving DecidableEq

namespace DeclarationKind

def name : DeclarationKind → String
  | .function => "function"
  | .classLike => "class"
  | .method => "method"
  | .field => "field"
  | .variable => "variable"

/-- Members belong to a class. -/
def isMember : DeclarationKind → Bool
  | .method | .field => true
  | _ => false

/-- What a node of some kind declares, if it declares anything. -/
def ofKind? : Kind → Option DeclarationKind
  | .functionDeclaration | .generatorFunctionDeclaration => some .function
  | .classDeclaration | .abstractClassDeclaration => some .classLike
  | .methodDefinition => some .method
  | .publicFieldDefinition | .fieldDefinition => some .field
  | .variableDeclarator => some .variable
  | _ => none

end DeclarationKind

/-- A named declaration. -/
structure Declaration where
  name : Text
  kind : DeclarationKind
  file : Text
  node : Cursor

namespace Declaration

def startByte (d : Declaration) : Nat :=
  d.node.info.startByte

def startLine (d : Declaration) : Int :=
  d.node.startLine

def endLine (d : Declaration) : Int :=
  d.node.endLine

/-- A declaration is known by its file and the place where it begins. -/
def key (d : Declaration) : Text × Nat :=
  (d.file, d.startByte)

/-- The kinds of nodes that can name a declaration. -/
def isName (k : Kind) : Bool :=
  k = .identifier || k = .typeIdentifier || k = .propertyIdentifier || k = .privatePropertyIdentifier

/-- The node that names a declaration: its name, or else its property. -/
def nameNode? (t : Tree) : Option Tree :=
  (t.child? .name <|> t.child? .property).filter fun n => isName n.kind

end Declaration

/-- The declaration that a node makes, if it makes one. -/
def Cursor.declaration? (file : Text) (c : Cursor) : Except Failure (Option Declaration) :=
  match DeclarationKind.ofKind? c.kind, Declaration.nameNode? c.tree with
  | some kind, some name => name.text.map fun text => some ⟨text, kind, file, c⟩
  | _, _ => .ok none

/-! ## The declaration at a line -/

namespace Tree

/-- Whether a row lies within a node. -/
def covers (row : Int) (t : Tree) : Bool :=
  (t.info.startRow : Int) ≤ row && row ≤ t.info.endRow

/-- The smaller of a declaration found before and the one that a node makes; the former if they are of
one size. -/
def smaller (file : Text) (best : Option Declaration) (c : Cursor) :
    Except Failure (Option Declaration) :=
  (c.declaration? file).map fun found =>
    match found, best with
    | none, _ => best
    | some d, none => some d
    | some d, some b => if c.tree.size < b.node.tree.size then some d else some b

mutual

/-- The smallest declaration below a node among those that cover a row, and the best one so far. The
children of a node are weighed first, then what is below them, from the last child to the first; no
child is entered that does not cover the row. -/
def smallestBelow (file : Text) (row : Int) (above : List Tree) :
    Tree → Option Declaration → Except Failure (Option Declaration)
  | .node info children, best => do
    let here := Tree.node info children :: above
    let best ← (children.filter (covers row)).foldlM (fun b t => smaller file b ⟨t, here⟩) best
    smallestBelowAll file row here children best

def smallestBelowAll (file : Text) (row : Int) (above : List Tree) :
    List Tree → Option Declaration → Except Failure (Option Declaration)
  | [], best => .ok best
  | t :: rest, best => do
    let best ← smallestBelowAll file row above rest best
    if covers row t then smallestBelow file row above t best else .ok best

end

end Tree

/-- The smallest declaration that covers a line. -/
def SourceFile.declarationAt? (f : SourceFile) (line : Int) : Except Failure (Option Declaration) :=
  f.tree.smallestBelow f.path (line - 1) [] none

/-- The nearest declaration around a node. -/
def Cursor.enclosingDeclaration? (file : Text) (c : Cursor) : Except Failure (Option Declaration) :=
  c.enclosing.findSomeM? (Cursor.declaration? file)

/-! ## Exports -/

namespace Tree

/-- Whether an export statement exports a default. -/
def hasDefault (t : Tree) : Bool :=
  t.children.any fun c => c.kind = .defaultKeyword

/-- The names in an export clause: what is exported, and under which name. -/
def exportSpecifiers (clause : Tree) : Except Failure (List (Text × Text)) :=
  ((clause.children.filter fun c => c.info.named && c.kind = .exportSpecifier).filterMap fun spec =>
      (spec.child? .name).map fun name => (name, (spec.child? .alias).getD name)).mapM
    fun (name, alias_) => do return (← name.text, ← alias_.text)

/-- The name of a default export. -/
def defaultName : Text := "default"

/-- The names under which one export statement of a module exports a name of that module. -/
def localExports (name : Text) (statement : Tree) : Except Failure (List Text) := do
  if statement.kind ≠ .exportStatement || (statement.child? .source).isSome then return []
  else
    let specifiers ← (statement.children.filter fun c => c.info.named && c.kind = .exportClause).mapM
      exportSpecifiers
    let listed := (specifiers.flatten.filter fun s => s.1 = name).map (·.2)
    if statement.hasDefault then
      match statement.child? .value with
      | some value =>
        if value.kind = .identifier then
          if (← value.text) = name then return listed ++ [defaultName] else return listed
        else return listed
      | none => return listed
    else return listed

end Tree

namespace Declaration

/-- The statement that makes a declaration. -/
def statement? (d : Declaration) : Option Cursor :=
  if d.kind = .variable then d.node.parent? else some d.node

/-- The names under which a declaration is exported from its own module. Only declarations at the top
level of a module are exported. -/
def exportNames (d : Declaration) : Except Failure (List Text) := do
  match d.statement?.bind Cursor.parent? with
  | none => return []
  | some container =>
    if container.kind = .exportStatement then
      return [if container.tree.hasDefault then Tree.defaultName else d.name]
    else if container.kind = .program then
      let names ← (container.tree.children.filter fun c => c.info.named).mapM (Tree.localExports d.name)
      return distinct names.flatten
    else return []

/-- Whether a member is private. -/
def isPrivate (d : Declaration) : Except Failure Bool :=
  d.node.tree.children.anyM fun c => do
    if c.kind = .accessibilityModifier then
      return (← c.text) == Text.ofString "private"
    else return c.kind = .privatePropertyIdentifier

/-- The nearest class around a declaration. -/
def enclosingClass? (d : Declaration) : Except Failure (Option Declaration) :=
  match d.node.enclosing.find? fun c => DeclarationKind.ofKind? c.kind = some .classLike with
  | some c => c.declaration? d.file
  | none => .ok none

/-- Whether a declaration is exported. -/
def isExported (d : Declaration) : Except Failure Bool :=
  d.exportNames.map fun names => !names.isEmpty

/-- Whether other modules can see a declaration. -/
def isVisible (d : Declaration) : Except Failure Bool := do
  if d.kind.isMember then
    if ← d.isPrivate then return false
    else
      match ← d.enclosingClass? with
      | some owner => owner.isExported
      | none => return false
  else d.isExported

end Declaration

/-! ## Visible declarations -/

/-- The declaration that a node makes, if other modules can see it. -/
def Cursor.visibleDeclaration? (file : Text) (c : Cursor) : Except Failure (Option Declaration) := do
  match ← c.declaration? file with
  | some d => if ← d.isVisible then return some d else return none
  | none => return none

/-- The nearest visible declaration around a node. -/
def Cursor.enclosingVisible? (file : Text) (c : Cursor) : Except Failure (Option Declaration) :=
  c.enclosing.findSomeM? (Cursor.visibleDeclaration? file)

/-- The visible declaration that a change of a line belongs to: the smallest declaration that covers
the line or else the nearest visible one around it. -/
def SourceFile.changedAt? (f : SourceFile) (line : Int) : Except Failure (Option Declaration) := do
  match ← f.declarationAt? line with
  | none => return none
  | some d => if ← d.isVisible then return some d else d.node.enclosingVisible? f.path

namespace Query

/-- The smallest declaration that covers a line of the file at a path. -/
def declarationAt? (path : Text) (line : Int) : Query (Option Declaration) := do
  match ← load path with
  | none => return none
  | some file => ofExcept (file.declarationAt? line)

/-- The visible declaration that a change of a line belongs to. -/
def changedAt? (path : Text) (line : Int) : Query (Option Declaration) := do
  match ← load path with
  | none => return none
  | some file => ofExcept (file.changedAt? line)

end Query

end AffectedTests
