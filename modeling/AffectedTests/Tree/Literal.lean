import AffectedTests.Tree.Basic
/-!
# String literals

The contents of a literal are what stands between its delimiters. In a quoted string escape sequences
denote characters; a template literal is taken as it is written.
-/

namespace AffectedTests

namespace Literal

/-! ## Escape sequences -/

/-- The value of a hexadecimal digit. -/
def hexValue? (c : CodePoint) : Option Nat :=
  let n := c.val
  if 0x30 ≤ n ∧ n ≤ 0x39 then some (n - 0x30)
  else if 0x41 ≤ n ∧ n ≤ 0x46 then some (n - 0x41 + 10)
  else if 0x61 ≤ n ∧ n ≤ 0x66 then some (n - 0x61 + 10)
  else none

/-- The number that hexadecimal digits denote; none when there are no digits or others among them. -/
def hexNumber? (digits : Text) : Option Nat :=
  if digits.isEmpty then none
  else (digits.mapM hexValue?).map (·.foldl (fun value digit => 16 * value + digit) 0)

/-- The number of an escape with exactly so many digits. -/
def fixed? (count : Nat) (t : Text) : Option Nat :=
  if (t.take count).length = count then hexNumber? (t.take count) else none

/-- The number of an escape with digits in braces, and how many code points it takes. -/
def braced? (t : Text) : Option (Nat × Nat) :=
  match t with
  | opening :: rest =>
    let digits := rest.takeWhile fun c => (hexValue? c).isSome
    if opening = '{' ∧ (rest.drop digits.length).head? = some ('}' : CodePoint) then
      (hexNumber? digits).map fun n => (n, digits.length + 2)
    else none
  | [] => none

/-- The letters that stand for control characters. -/
def controls : List (CodePoint × CodePoint) :=
  [('n', '\n'), ('t', '\t'), ('r', '\r'), ('b', '\x08'), ('f', '\x0c'), ('v', '\x0b'), ('0', '\x00')]

/-- The line ends that a backslash takes away. -/
def lineEnds : List CodePoint :=
  ['\n', '\r', '\u2028', '\u2029']

/-- The text of a number. -/
def point (n : Nat) : Except Failure Text :=
  if h : n < 0x110000 then .ok [⟨n, h⟩] else .error (.noSuchCodePoint n)

/-- What the text after a backslash denotes, and how many code points of it belong to the escape. -/
def escape (first : CodePoint) (rest : Text) : Except Failure (Text × Nat) :=
  if first = 'u' then
    match braced? rest, fixed? 4 rest with
    | some (n, used), _ => (point n).map fun t => (t, used + 1)
    | none, some n => (point n).map fun t => (t, 5)
    | none, none => .ok ([first], 1)
  else if first = 'x' then
    match fixed? 2 rest with
    | some n => (point n).map fun t => (t, 3)
    | none => .ok ([first], 1)
  else if first = '\r' ∧ rest.head? = some ('\n' : CodePoint) then .ok ([], 2)
  else if lineEnds.contains first then .ok ([], 1)
  else .ok ([(controls.lookup first).getD first], 1)

/-- Decodes a text; `skip` counts the code points that belong to the last escape. A backslash at the
very end stands for itself. -/
def decodeFrom : (skip : Nat) → Text → Except Failure Text
  | _, [] => .ok []
  | skip + 1, _ :: rest => decodeFrom skip rest
  | 0, c :: rest =>
    match rest with
    | [] => .ok [c]
    | first :: after =>
      if c = '\\' then
        match escape first after with
        | .error e => .error e
        | .ok (piece, used) => (decodeFrom used rest).map (piece ++ ·)
      else (decodeFrom 0 rest).map (c :: ·)

/-- The text that the body of a quoted string denotes. -/
def decode (body : Text) : Except Failure Text :=
  decodeFrom 0 body

/-! ## Literals -/

/-- The text between the delimiters. -/
def body (t : Text) : Text :=
  (t.drop 1).dropLast

/-- The contents of a string or template literal. -/
def value (t : Tree) : Except Failure Text :=
  match t.text with
  | .error e => .error e
  | .ok text => if t.kind = .string then decode (body text) else .ok (body text)

end Literal

end AffectedTests
