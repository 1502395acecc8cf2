import AffectedTests.Report.Pictograph.Names
import AffectedTests.Text.Blank
import AffectedTests.Text.Lowercase
/-!
# Pictographs by name

A line of a report may name a pictograph between two colons, such as `:warning:`. Capital letters count
as small ones. The name may end in a request for the form as text or as a picture. A name that stands for
no pictograph stays as it is, and so do both of its colons.

- `Pictograph.ofName?` looks a name up.
- `Pictograph.insertAll` puts pictographs in the place of their names.
-/

namespace AffectedTests

namespace Pictograph

/-! ## Names -/

/-- The ends of names that choose a tone of skin. -/
def tones : List (Text × CodePoint) := [
  ("_light_skin_tone", CodePoint.ofNat 0x1F3FB),
  ("_medium-light_skin_tone", CodePoint.ofNat 0x1F3FC),
  ("_medium_skin_tone", CodePoint.ofNat 0x1F3FD),
  ("_medium-dark_skin_tone", CodePoint.ofNat 0x1F3FE),
  ("_dark_skin_tone", CodePoint.ofNat 0x1F3FF)]

/-- A pictograph in a tone of skin: the tone stands behind the first character, where it takes the place
of a selector. -/
def inTone (tone : CodePoint) : Text → Text
  | [] => [tone]
  | first :: rest => first :: tone :: Text.dropLead rest "\ufe0f"

/-- The pictograph with a name that ends in a choice of a tone. -/
def withTone? (name : Text) : Option Text :=
  tones.findSome? fun (ending, tone) =>
    if name.endsWith ending then
      (toned.lookup (name.take (name.length - ending.length))).map (inTone tone)
    else none

/-- The pictograph with a name in small letters. -/
def ofName? (name : Text) : Option Text :=
  untoned.lookup name <|> toned.lookup name <|> withTone? name

/-! ## Forms -/

/-- The ends of names that choose a form, with the selectors of the forms. -/
def forms : List (Text × CodePoint) :=
  [("-text", '\ufe0e'), ("-emoji", '\ufe0f')]

/-- A name without its choice of a form, and the selector of that form. -/
def splitForm (name : Text) : Text × Text :=
  match forms.find? fun form => name.endsWith form.1 with
  | some (ending, selector) => (name.take (name.length - ending.length), [selector])
  | none => (name, [])

/-! ## Lines -/

def colon : CodePoint := ':'

/-- What stands for a name between two colons. -/
def ofCode (code : Text) : Text :=
  let (name, selector) := splitForm code
  match ofName? name.lower with
  | some pictograph => pictograph ++ selector
  | none => colon :: code ++ [colon]

/-- A text with pictographs in the place of their names. A colon opens a name, which no blank may
interrupt; `code` is what has been read of it, in reverse. -/
def insertFrom : (code : Option Text) → Text → Text
  | none, [] => []
  | some code, [] => colon :: code.reverse
  | none, c :: rest =>
    if c = colon then insertFrom (some []) rest else c :: insertFrom none rest
  | some code, c :: rest =>
    if c = colon then ofCode code.reverse ++ insertFrom none rest
    else if c.isBlank then colon :: code.reverse ++ c :: insertFrom none rest
    else insertFrom (some (c :: code)) rest

/-- A text with pictographs in the place of their names. -/
def insertAll (t : Text) : Text :=
  insertFrom none t

end Pictograph

end AffectedTests
