/-!
# Text

A text is a list of code points. Surrogates are admitted, because an escape in a string literal can
denote one on its own; everything else about a text is the list library.

- `Text.ofString` embeds strings, `Text.toString?` goes back when no surrogate occurs.
- `Text.splitOn` and `Text.join` are the usual pair for one separator.
-/

namespace AffectedTests

/-! ## Code points -/

/-- A Unicode code point, surrogates included. -/
abbrev CodePoint := Fin 0x110000

/-- A sequence of code points. -/
abbrev Text := List CodePoint

namespace CodePoint

/-- A character is a code point that is no surrogate. -/
def ofChar (c : Char) : CodePoint :=
  ⟨c.toNat, by
    have h := c.valid
    simp only [Char.toNat, UInt32.isValidChar, Nat.isValidChar] at *
    omega⟩

instance : Coe Char CodePoint := ⟨ofChar⟩

/-- The code point with a number; numbers beyond the code space start again at zero. -/
def ofNat (n : Nat) : CodePoint :=
  ⟨n % 0x110000, Nat.mod_lt n (by decide)⟩

/-- The code points that no encoding form may hold on their own. -/
def isSurrogate (c : CodePoint) : Bool :=
  0xD800 ≤ c.val && c.val ≤ 0xDFFF

/-- The character at a code point, none for a surrogate. -/
def toChar? (c : CodePoint) : Option Char :=
  if h : c.val.isValidChar then some (Char.ofNatAux c.val h) else none

end CodePoint

/-! ## Texts -/

namespace Text

/-- The code points of a string. -/
def ofString (s : String) : Text :=
  s.toList.map CodePoint.ofChar

instance : Coe String Text := ⟨ofString⟩

/-- The string with these code points; none when one of them is a surrogate. -/
def toString? (t : Text) : Option String :=
  (t.mapM CodePoint.toChar?).map String.ofList

def startsWith (t lead : Text) : Bool :=
  lead.isPrefixOf t

def endsWith (t tail : Text) : Bool :=
  tail.isSuffixOf t

/-- The text without a leading part; unchanged when it does not begin with it. -/
def dropLead (t lead : Text) : Text :=
  if t.startsWith lead then t.drop lead.length else t

/-- The text without the copies of one code point at its end. -/
def trimEnd (t : Text) (c : CodePoint) : Text :=
  (t.reverse.dropWhile (· == c)).reverse

/-- The pieces between the occurrences of a separator; one more piece than separators. -/
def splitOn (sep : CodePoint) : Text → List Text
  | [] => [[]]
  | c :: rest =>
    if c = sep then [] :: splitOn sep rest
    else match splitOn sep rest with
      | [] => [[c]]
      | piece :: pieces => (c :: piece) :: pieces

/-- The pieces with a text between each two. -/
def join (sep : Text) (pieces : List Text) : Text :=
  sep.intercalate pieces

/-- Code point order, a proper beginning of a text before the text. -/
def le : Text → Text → Bool
  | [], _ => true
  | _ :: _, [] => false
  | a :: as, b :: bs => a.val < b.val || (a.val = b.val && le as bs)

theorem splitOn_ne_nil (sep : CodePoint) (t : Text) : splitOn sep t ≠ [] := by
  cases t with
  | nil => simp [splitOn]
  | cons c rest =>
    simp only [splitOn]
    split
    · simp
    · split <;> simp

end Text

end AffectedTests
