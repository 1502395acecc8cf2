import AffectedTests.Failure
/-!
# Parse trees

A parse tree has a kind, a place in the source and the text there at each node. The kinds and fields
that the analysis looks at have names of their own. A cursor is a node together with the nodes around
it, so that a search can go up as well as down.
-/

namespace AffectedTests

/-! ## Kinds and fields -/

/-- What a node is. -/
inductive Kind
  | program
  | callExpression | memberExpression | arguments
  | identifier | typeIdentifier | propertyIdentifier | privatePropertyIdentifier
  | shorthandPropertyIdentifier
  | string | templateString | comment
  | functionDeclaration | generatorFunctionDeclaration | functionSignature | arrowFunction
  | classDeclaration | abstractClassDeclaration
  | methodDefinition | publicFieldDefinition | fieldDefinition | accessibilityModifier
  | variableDeclarator
  | formalParameters | requiredParameter | optionalParameter
  | importStatement | importClause | namedImports | importSpecifier | namespaceImport
  | exportStatement | exportClause | exportSpecifier | namespaceExport | defaultKeyword
  | other (name : String)
  deriving DecidableEq

namespace Kind

/-- The kinds that the grammars name. -/
def byName : List (String × Kind) :=
  [("program", .program),
    ("call_expression", .callExpression), ("member_expression", .memberExpression),
    ("arguments", .arguments),
    ("identifier", .identifier), ("type_identifier", .typeIdentifier),
    ("property_identifier", .propertyIdentifier),
    ("private_property_identifier", .privatePropertyIdentifier),
    ("shorthand_property_identifier", .shorthandPropertyIdentifier),
    ("string", .string), ("template_string", .templateString), ("comment", .comment),
    ("function_declaration", .functionDeclaration),
    ("generator_function_declaration", .generatorFunctionDeclaration),
    ("function_signature", .functionSignature), ("arrow_function", .arrowFunction),
    ("class_declaration", .classDeclaration),
    ("abstract_class_declaration", .abstractClassDeclaration),
    ("method_definition", .methodDefinition), ("public_field_definition", .publicFieldDefinition),
    ("field_definition", .fieldDefinition), ("accessibility_modifier", .accessibilityModifier),
    ("variable_declarator", .variableDeclarator),
    ("formal_parameters", .formalParameters), ("required_parameter", .requiredParameter),
    ("optional_parameter", .optionalParameter),
    ("import_statement", .importStatement), ("import_clause", .importClause),
    ("named_imports", .namedImports), ("import_specifier", .importSpecifier),
    ("namespace_import", .namespaceImport),
    ("export_statement", .exportStatement), ("export_clause", .exportClause),
    ("export_specifier", .exportSpecifier), ("namespace_export", .namespaceExport),
    ("default", .defaultKeyword)]

/-- The kind with a name. -/
def ofName (name : String) : Kind :=
  (byName.lookup name).getD (.other name)

end Kind

/-- The part that a node plays in its parent. -/
inductive Field
  | function | object | property | arguments | name | alias | source | value | parameter
  | other (name : String)
  deriving DecidableEq

namespace Field

/-- The fields that the grammars name. -/
def byName : List (String × Field) :=
  [("function", .function), ("object", .object), ("property", .property),
    ("arguments", .arguments), ("name", .name), ("alias", .alias), ("source", .source),
    ("value", .value), ("parameter", .parameter)]

/-- The field with a name; none for the empty name. -/
def ofName? (name : String) : Option Field :=
  if name.isEmpty then none else some ((byName.lookup name).getD (.other name))

end Field

/-! ## Trees -/

/-- What a tree says about one node. -/
structure NodeInfo where
  kind : Kind
  /-- Named nodes are those that the grammar has rules for; the others are tokens. -/
  named : Bool
  field : Option Field
  startByte : Nat
  endByte : Nat
  /-- How many line feeds precede the start and the end. -/
  startRow : Nat
  endRow : Nat
  text : Bytes
  deriving DecidableEq

/-- A parse tree. -/
inductive Tree where
  | node (info : NodeInfo) (children : List Tree)

namespace Tree

def info : Tree → NodeInfo
  | .node info _ => info

def children : Tree → List Tree
  | .node _ children => children

def kind (t : Tree) : Kind :=
  t.info.kind

/-- The number of bytes that a node covers. -/
def size (t : Tree) : Nat :=
  t.info.endByte - t.info.startByte

/-- The first child that plays a part. -/
def child? (t : Tree) (field : Field) : Option Tree :=
  t.children.find? fun c => c.info.field = some field

/-- The characters of a node. -/
def text (t : Tree) : Except Failure Text :=
  match Utf8.decode t.info.text with
  | some text => .ok text
  | none => .error .undecodable

end Tree

/-! ## Cursors -/

/-- A node of a tree with the nodes around it, the nearest first. -/
structure Cursor where
  tree : Tree
  above : List Tree

namespace Cursor

/-- The cursor at the root of a tree. -/
def ofRoot (t : Tree) : Cursor :=
  ⟨t, []⟩

def info (c : Cursor) : NodeInfo :=
  c.tree.info

def kind (c : Cursor) : Kind :=
  c.tree.info.kind

/-- The number of the line where a node begins; lines count from one. -/
def startLine (c : Cursor) : Int :=
  c.info.startRow + 1

/-- The number of the line where a node ends. -/
def endLine (c : Cursor) : Int :=
  c.info.endRow + 1

def text (c : Cursor) : Except Failure Text :=
  c.tree.text

def parent? (c : Cursor) : Option Cursor :=
  match c.above with
  | [] => none
  | parent :: above => some ⟨parent, above⟩

/-- The nodes around a node, the nearest first. -/
def enclosing (c : Cursor) : List Cursor :=
  go c.above
where
  go : List Tree → List Cursor
    | [] => []
    | t :: above => ⟨t, above⟩ :: go above

def children (c : Cursor) : List Cursor :=
  c.tree.children.map fun t => ⟨t, c.tree :: c.above⟩

/-- The children that the grammar has rules for. -/
def namedChildren (c : Cursor) : List Cursor :=
  c.children.filter fun child => child.info.named

/-- The first child that plays a part. -/
def child? (c : Cursor) (field : Field) : Option Cursor :=
  c.children.find? fun child => child.info.field = some field

/-- Whether two nodes have the same kind and place. -/
def same (a b : Cursor) : Bool :=
  a.info.startByte = b.info.startByte && a.info.endByte = b.info.endByte && a.kind = b.kind

end Cursor

namespace Tree

mutual

/-- All nodes of a tree, each before its children. -/
def preorder (above : List Tree) : Tree → List Cursor
  | .node info children =>
    ⟨.node info children, above⟩ :: preorderAll (.node info children :: above) children

def preorderAll (above : List Tree) : List Tree → List Cursor
  | [] => []
  | t :: rest => preorder above t ++ preorderAll above rest

end

end Tree

/-- The node and all nodes below it, each before its children. -/
def Cursor.preorder (c : Cursor) : List Cursor :=
  c.tree.preorder c.above

end AffectedTests
