import AffectedTests.Text.Printable
/-!
# Showing texts in messages

A text is shown on one line and in quotes, with everything unprintable escaped.
-/

namespace AffectedTests

namespace Text

/-- A number in hexadecimal with a fixed number of digits. -/
def hexPadded (width n : Nat) : Text :=
  let digits := Nat.toDigits 16 n
  (List.replicate (width - digits.length) '0' ++ digits).map CodePoint.ofChar

/-- Single quotes, unless the text has some and no double ones. -/
def quoteFor (t : Text) : CodePoint :=
  if t.contains ('\'' : CodePoint) ∧ !t.contains ('"' : CodePoint) then '"' else '\''

/-- One code point between quotes. -/
def shownPoint (quote c : CodePoint) : Text :=
  if c = quote ∨ c = '\\' then ['\\', c]
  else if c = '\t' then "\\t"
  else if c = '\n' then "\\n"
  else if c = '\r' then "\\r"
  else if c.isPrintable then [c]
  else if c.val < 0x100 then "\\x" ++ hexPadded 2 c.val
  else if c.val < 0x10000 then "\\u" ++ hexPadded 4 c.val
  else "\\U" ++ hexPadded 8 c.val

/-- A text in quotes. -/
def shown (t : Text) : Text :=
  let quote := quoteFor t
  quote :: t.flatMap (shownPoint quote) ++ [quote]

end Text

end AffectedTests
