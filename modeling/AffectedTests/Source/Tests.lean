import AffectedTests.Impact.Direct
import AffectedTests.Impact.Removed
import AffectedTests.Source.Session
import AffectedTests.Tree.Literal
/-!
# Test declarations

A call declares a test or a suite when its callee is a test keyword, perhaps with modifiers after it,
none of which makes the call something else, and when its first argument is a literal: the name.
-/

namespace AffectedTests

namespace TestCall

mutual

/-- The callee of a call without its modifiers, and the modifiers, the last one first. -/
def unwind : Tree → Except Failure (List Text × Option Tree)
  | .node info children =>
    if info.kind = .memberExpression then do
      let last ← match children.find? fun c => c.info.field = some .property with
        | some property => (property.text).map ([·])
        | none => .ok []
      let (earlier, callee) ← unwindObject children
      return (last ++ earlier, callee)
    else .ok ([], some (.node info children))

/-- The same for the first child that is the object of a member expression. -/
def unwindObject : List Tree → Except Failure (List Text × Option Tree)
  | [] => .ok ([], none)
  | t :: rest => if t.info.field = some .object then unwind t else unwindObject rest

end

/-- Whether a call is one of a test keyword, by its callee. -/
def isOfKeyword (keywords : List Text) (call : Tree) : Except Failure Bool := do
  match call.child? .function with
  | none => return false
  | some function =>
    match ← unwind function with
    | (modifiers, some callee) =>
      if callee.kind = .identifier then
        return keywords.contains (← callee.text) && !modifiers.any nonDeclaringModifiers.contains
      else return false
    | (_, none) => return false

/-- The literal that names a test: the first argument that is no comment. -/
def nameLiteral? (call : Tree) : Option Tree :=
  match call.child? .arguments with
  | none => none
  | some arguments =>
    if arguments.kind = .arguments then
      (arguments.children.find? fun c => c.info.named && c.kind ≠ .comment).filter fun c =>
        c.kind = .string || c.kind = .templateString
    else none

end TestCall

/-- The test or suite that a node declares, if it declares one. -/
def Cursor.test? (keywords : List Text) (file : Text) (c : Cursor) :
    Except Failure (Option TestDeclaration) := do
  if c.kind = .callExpression then
    if ← TestCall.isOfKeyword keywords c.tree then
      match TestCall.nameLiteral? c.tree with
      | some literal => return some ⟨← Literal.value literal, c.startLine, c.endLine, file⟩
      | none => return none
    else return none
  else return none

/-- The innermost test or suite around a node. -/
def Cursor.enclosingTest? (keywords : List Text) (file : Text) (c : Cursor) :
    Except Failure (Option TestDeclaration) :=
  c.enclosing.findSomeM? (Cursor.test? keywords file)

/-- All tests and suites of a file, in document order. -/
def SourceFile.tests (keywords : List Text) (f : SourceFile) : Except Failure (List TestDeclaration) :=
  (f.top.preorder.mapM (Cursor.test? keywords f.path)).map fun found => found.filterMap id

namespace Query

def keywords : Query (List Text) :=
  return (← read).settings.testKeywords

/-- The tests of the file at a path; a file that cannot be loaded has none. -/
def tests (path : Text) : Query (List TestDeclaration) := do
  match ← load path with
  | none => return []
  | some file => ofExcept (file.tests (← keywords))

end Query

end AffectedTests
