import AffectedTests.Tree.Basic
/-!
# Trees as rows

A tree can be listed one row per node, each node before its children and with its depth. The listing
determines the tree: the children of a row are the rows that follow it one level deeper, up to the next
row that is not deeper than itself.
-/

namespace AffectedTests

/-- One node in the listing of a tree. -/
structure TreeRow where
  depth : Nat
  kind : Kind
  named : Bool
  field : Option Field
  startByte : Nat
  endByte : Nat

namespace Tree

/-- The bytes from one place to another. -/
def slice (source : Bytes) (first last : Nat) : Bytes :=
  (source.drop first).take (last - first)

/-- How many line feeds precede a place. -/
def rowAt (source : Bytes) (place : Nat) : Nat :=
  (source.take place).count 0x0A

/-- What a row says about its node. -/
def infoOf (source : Bytes) (r : TreeRow) : NodeInfo :=
  { kind := r.kind
    named := r.named
    field := r.field
    startByte := r.startByte
    endByte := r.endByte
    startRow := rowAt source r.startByte
    endRow := rowAt source r.endByte
    text := slice source r.startByte r.endByte }

/-- Puts a row in front of the trees that follow it: the leading ones that are deeper are its
children. -/
def addRow (source : Bytes) (r : TreeRow) (later : List (Nat × Tree)) : List (Nat × Tree) :=
  let deeper := later.takeWhile fun t => r.depth < t.1
  (r.depth, .node (infoOf source r) (deeper.map (·.2))) :: later.drop deeper.length

/-- The tree of a listing; a listing without rows is an empty program. -/
def ofRows (source : Bytes) (rows : List TreeRow) : Tree :=
  match rows.foldr (addRow source) [] with
  | (_, t) :: _ => t
  | [] => .node (infoOf source ⟨0, .program, true, none, 0, 0⟩) []

end Tree

end AffectedTests
