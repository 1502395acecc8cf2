import AffectedTests.Decimal.Shortest
import AffectedTests.Json.Basic
import AffectedTests.Text.Digit
/-!
# Writing JSON

A value is written over several lines: one line per item and per entry, each level two columns further
in. Empty arrays and objects stay on one line. What is written is ASCII; every other code point is
escaped by its UTF-16 units.
-/

namespace AffectedTests

namespace Json

/-! ## Texts -/

/-- An escaped UTF-16 unit: four digits in hexadecimal. -/
def writtenUnit (n : Nat) : Text :=
  let digits := Nat.toDigits 16 n
  "\\u" ++ (List.replicate (4 - digits.length) '0' ++ digits).map CodePoint.ofChar

/-- One code point of a text. -/
def writtenPoint (c : CodePoint) : Text :=
  if c = '"' ∨ c = '\\' then ['\\', c]
  else if c = '\n' then "\\n"
  else if c = '\r' then "\\r"
  else if c = '\t' then "\\t"
  else if c = '\x08' then "\\b"
  else if c = '\x0c' then "\\f"
  else if 0x20 ≤ c.val ∧ c.val ≤ 0x7E then [c]
  else if c.val < 0x10000 then writtenUnit c.val
  else
    let offset := c.val - 0x10000
    writtenUnit (0xD800 + offset / 0x400) ++ writtenUnit (0xDC00 + offset % 0x400)

/-- A text in quotes. -/
def writtenText (t : Text) : Text :=
  "\"" ++ t.flatMap writtenPoint ++ "\""

/-! ## Values -/

/-- Numbers have the same digits here as in messages; what is no number has a name. -/
def writtenNumbers : Decimal.Layout :=
  { firstPlain := -3, lastPlain := 16, exponentWidth := 2, infinity := "Infinity", notANumber := "NaN" }

/-- The beginning of a line at a level. -/
def indentation (level : Nat) : Text :=
  "\n" ++ (List.replicate (2 * level) ' ').map CodePoint.ofChar

/-- Lines one level further in, between brackets. -/
def writtenBlock (opening closing : Text) (level : Nat) (lines : List Text) : Text :=
  if lines = [] then opening ++ closing
  else
    opening ++ indentation (level + 1) ++ Text.join ("," ++ indentation (level + 1)) lines ++
      indentation level ++ closing

mutual

/-- A value at a level. -/
def written (level : Nat) : Json → Text
  | .null => "null"
  | .bool true => "true"
  | .bool false => "false"
  | .integer i => Text.ofInt i
  | .real x => Decimal.write writtenNumbers x
  | .text t => writtenText t
  | .array items => writtenBlock "[" "]" level (writtenItems (level + 1) items)
  | .object entries => writtenBlock "\x7b" "\x7d" level (writtenEntries (level + 1) entries)

def writtenItems (level : Nat) : List Json → List Text
  | [] => []
  | v :: rest => written level v :: writtenItems level rest

def writtenEntries (level : Nat) : List (Text × Json) → List Text
  | [] => []
  | (key, v) :: rest => (writtenText key ++ ": " ++ written level v) :: writtenEntries level rest

end

/-- The text of a value. -/
def write (v : Json) : Text :=
  written 0 v

end Json

end AffectedTests
