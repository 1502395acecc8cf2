import AffectedTests.Disk.Basic
import AffectedTests.Limit
/-!
# Failures

What can go wrong while inputs are read, sources are searched and files are written. A failure ends the
query or the change that meets it.
-/

namespace AffectedTests

/-- Why a query has no answer, or a change is not made. -/
inductive Failure
  /-- Bytes of a source that are no UTF-8. -/
  | undecodable
  /-- An escape in a string literal that denotes no code point. -/
  | noSuchCodePoint (number : Nat)
  /-- A text that has no bytes, because it holds a surrogate. -/
  | unencodable
  /-- A path with a name that no file can have. -/
  | badName (fault : Path.NameFault)
  | disk (error : DiskError)
  /-- Something that is too large to be read. -/
  | exceeds (limit : Limit)
  /-- References to a declaration that cannot be found, because of another failure. -/
  | unresolved (name file : Text) (cause : Failure)

namespace Failure

/-- The message of a failure up to its cause. -/
def summary : Failure → Text
  | .undecodable => "The source is not UTF-8"
  | .noSuchCodePoint number => "There is no code point " ++ Text.ofString (toString number)
  | .unencodable => "The text holds a surrogate"
  | .badName _ => "No file can have this name"
  | .disk error => error.wording
  | .exceeds limit => limit.wording
  | .unresolved name file _ =>
    "Could not resolve references to " ++ name ++ (" in " : Text) ++ file ++ ": "

/-- Whether a failure of one look-up is reported as unresolved references. A number of more than 31
bits is no number of a code point at all, and its failure is passed on. -/
def isOfLookup : Failure → Bool
  | .noSuchCodePoint number => number < 0x80000000
  | _ => true

end Failure

end AffectedTests
