import AffectedTests.Decimal.Binary
import AffectedTests.Table
import AffectedTests.Text.Basic
/-!
# JSON values

Integers of any size are kept apart from the other numbers. An object has one entry per key, in the
order in which the keys first occur, each with the value that was given last.
-/

namespace AffectedTests

/-- A JSON value. -/
inductive Json
  | null
  | bool (b : Bool)
  | integer (i : Int)
  | real (x : Binary64)
  | text (t : Text)
  | array (items : List Json)
  | object (entries : List (Text × Json))

end AffectedTests
