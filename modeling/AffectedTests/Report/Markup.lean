import AffectedTests.Report.Pictograph
import AffectedTests.Text.Cells
/-!
# Markup

A line of a report may hold tags in brackets, such as `[bold]`, that set a style. A tag begins with a
small letter, a number sign, a slash or an at sign and holds no further opening bracket; brackets around
anything else are ordinary text. A backslash takes the meaning from a tag, and of two backslashes before
a tag the first takes the meaning from the second.

- `Markup.escape` makes a text safe to be put into a line.
- `Markup.plain` is what a console without styles shows.
-/

namespace AffectedTests

namespace Markup

def backslash : CodePoint := '\\'

def opening : CodePoint := '['

def closing : CodePoint := ']'

/-- Whether a tag can begin with a code point. -/
def beginsTag (c : CodePoint) : Bool :=
  (0x61 ≤ c.val && c.val ≤ 0x7A) || c = '#' || c = '/' || c = '@'

/-- Whether the text after an opening bracket completes a tag. -/
def completesTag : Text → Bool
  | [] => false
  | c :: rest =>
    beginsTag c && (rest.dropWhile fun c => c != opening && c != closing).head? == some closing

/-! ## Escaping -/

/-- Escapes a text that some backslashes precede. -/
def escapeAfter : (backslashes : Nat) → Text → Text
  | n, [] => List.replicate n backslash
  | n, c :: rest =>
    if c = backslash then escapeAfter (n + 1) rest
    else if c = opening ∧ completesTag rest = true then
      List.replicate (2 * n + 1) backslash ++ c :: escapeAfter 0 rest
    else List.replicate n backslash ++ c :: escapeAfter 0 rest

/-- The text with every tag escaped. A single backslash at the end is doubled, because a tag may
follow. -/
def escape (t : Text) : Text :=
  let escaped := escapeAfter 0 t
  if escaped.endsWith [backslash] && !escaped.endsWith [backslash, backslash] then
    escaped ++ [backslash]
  else escaped

/-! ## Plain text -/

/-- Where a reader of markup is. -/
inductive Place
  /-- In the text, after some backslashes. -/
  | text (backslashes : Nat)
  /-- In a tag, which is shown if it is escaped. -/
  | tag (isShown : Bool)

/-- Adds a text in front of the first of some pieces. -/
def addFront (t : Text) : List Text → List Text
  | [] => [t]
  | piece :: pieces => (t ++ piece) :: pieces

/-- The pieces of a text between its tags, without the tags and the escapes; an escaped tag is a piece of
its own. A backslash before a bracket that belongs to no tag is dropped. -/
def pieces : Place → Text → List Text
  | .text n, [] => [List.replicate n backslash]
  | .tag _, [] => [[]]
  | .tag isShown, c :: rest =>
    let later := if c = closing then [] :: pieces (.text 0) rest else pieces (.tag isShown) rest
    if isShown then addFront [c] later else later
  | .text n, c :: rest =>
    if c = backslash then pieces (.text (n + 1)) rest
    else if c = opening then
      if completesTag rest then
        [] :: List.replicate (n / 2) backslash ::
          if n % 2 = 1 then addFront [c] (pieces (.tag true) rest) else pieces (.tag false) rest
      else addFront (List.replicate (n - 1) backslash ++ [c]) (pieces (.text 0) rest)
    else addFront (List.replicate n backslash ++ [c]) (pieces (.text 0) rest)

/-- The controls that a console drops: bell, backspace, vertical tab, form feed and carriage return. -/
def isDropped (c : CodePoint) : Bool :=
  [0x07, 0x08, 0x0B, 0x0C, 0x0D].contains c.val

/-- What a console without styles shows of a line. The name of a pictograph has to stand within one
piece. -/
def plain (t : Text) : Text :=
  let shown := (pieces (.text 0) t).flatMap Pictograph.insertAll
  Text.expandTabs (shown.filter fun c => !isDropped c)

end Markup

end AffectedTests
