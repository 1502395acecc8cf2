import AffectedTests.Json.Reader
import AffectedTests.Tree.Rows
/-!
# Stored trees

A tree can be kept beside its source as a JSON array with one row per node: depth, kind, field, and the
places where the node begins and ends. The kind of a token has an apostrophe in front of it.
-/

namespace AffectedTests

/-- The mark in front of the kind of a token. -/
def tokenMark : CodePoint := '\''

/-- A row, read from its stored form. -/
def TreeRow.ofJson? : Json → Option TreeRow
  | .array [.integer depth, .text kind, .text field, .integer first, .integer last] => do
    let isToken := kind.head? == some tokenMark
    let kind ← Text.toString? (if isToken then kind.drop 1 else kind)
    let field ← Text.toString? field
    return ⟨depth.toNat, Kind.ofName kind, !isToken, Field.ofName? field, first.toNat, last.toNat⟩
  | _ => none

/-- The tree of a source, read from the bytes that it is stored as. -/
def Tree.ofStored? (source stored : Bytes) : Option Tree := do
  let text ← Utf8.decode stored
  match (Json.read text).toOption with
  | some (.array rows) => return Tree.ofRows source (← rows.mapM TreeRow.ofJson?)
  | _ => none

end AffectedTests
