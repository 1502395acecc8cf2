/-!
# Limits

How much is read and made. A number with more digits than the limit and a value inside more arrays and
objects are refused as soon as they are met, whatever follows them, and so is a file that needs more new
directories. Nor is a tree listed with more directories within one another.
-/

namespace AffectedTests

/-- What is refused because of its size. -/
inductive Limit
  /-- The digits of one number; zeros at its front count too. -/
  | digits
  /-- The arrays and objects, or the directories, that lie within one another. -/
  | nesting
  deriving DecidableEq

namespace Limit

/-- The largest size that is accepted. Each of the things within one another takes a call within a call:
of 1000 such calls, those around reading and listing leave 990. -/
def size : Limit → Nat
  | .digits => 4300
  | .nesting => 990

/-- What is wrong with something that is larger. -/
def wording : Limit → String
  | .digits => "A number has too many digits"
  | .nesting => "Too many things lie within one another"

end Limit

end AffectedTests
