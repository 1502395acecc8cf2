import AffectedTests.Path.CharacterNames
import AffectedTests.Text.Utf8
/-!
# Quoted paths

A path with unusual characters is written in double quotes, with backslash escapes that denote bytes;
the bytes are the UTF-8 form of the path. What is no well-formed escape sequence is left as it stands.
-/

namespace AffectedTests

namespace Path.Quoted

/-! ## Digits and single escapes -/

/-- The value of a digit in a base of at most sixteen. -/
def digitIn? (base : Nat) (c : CodePoint) : Option Nat :=
  let n := c.val
  let value :=
    if 0x30 ≤ n ∧ n ≤ 0x39 then n - 0x30
    else if 0x41 ≤ n ∧ n ≤ 0x46 then n - 0x41 + 10
    else if 0x61 ≤ n ∧ n ≤ 0x66 then n - 0x61 + 10
    else base
  if value < base then some value else none

/-- The escapes of one letter and the byte that each denotes. -/
def letterEscapes : List (CodePoint × UInt8) :=
  [('\\', 0x5C), ('\'', 0x27), ('"', 0x22), ('a', 0x07), ('b', 0x08), ('t', 0x09), ('n', 0x0A),
    ('v', 0x0B), ('f', 0x0C), ('r', 0x0D)]

/-- The letters that announce hexadecimal digits, and how many. -/
def hexEscapes : List (CodePoint × Nat) :=
  [('x', 2), ('u', 4), ('U', 8)]

/-- The byte with a number; larger numbers have none. -/
def byte? (n : Nat) : Option UInt8 :=
  if n < 0x100 then some n.toUInt8 else none

/-! ## The bytes behind an escaped text -/

/-- What has been read of an escape sequence. -/
inductive Pending
  | nothing
  | backslash
  /-- Octal digits and how many more may follow. -/
  | octal (value more : Nat)
  /-- Hexadecimal digits and how many more must follow. -/
  | hex (value more : Nat)
  /-- The letter that announces a name. -/
  | announced
  /-- A name after its opening brace, last character first. -/
  | name (read : Text)

/-- The bytes that a text denotes. A character beyond one byte, a number beyond one byte, a missing
digit, a name of no such character and a lone backslash at the end have none. -/
def bytesFrom : Pending → Text → Option Bytes
  | .nothing, [] => some []
  | .backslash, [] => none
  | .octal value _, [] => (byte? value).map ([·])
  | .hex _ _, [] => none
  | .announced, [] => none
  | .name _, [] => none
  | .nothing, c :: rest =>
    if c = '\\' then bytesFrom .backslash rest
    else do return (← byte? c.val) :: (← bytesFrom .nothing rest)
  | .backslash, c :: rest =>
    match letterEscapes.lookup c, digitIn? 8 c, hexEscapes.lookup c with
    | some b, _, _ => (bytesFrom .nothing rest).map (b :: ·)
    | none, some digit, _ => bytesFrom (.octal digit 2) rest
    | none, none, some count => bytesFrom (.hex 0 count) rest
    | none, none, none =>
      if c = '\n' then bytesFrom .nothing rest
      else if c = 'N' then bytesFrom .announced rest
      else do return 0x5C :: (← byte? c.val) :: (← bytesFrom .nothing rest)
  | .octal value more, c :: rest =>
    match more, digitIn? 8 c with
    | more + 1, some digit => bytesFrom (.octal (8 * value + digit) more) rest
    | _, _ =>
      if c = '\\' then do return (← byte? value) :: (← bytesFrom .backslash rest)
      else do return (← byte? value) :: (← byte? c.val) :: (← bytesFrom .nothing rest)
  | .hex value more, c :: rest =>
    match digitIn? 16 c with
    | none => none
    | some digit =>
      let value := 16 * value + digit
      if more ≤ 1 then do return (← byte? value) :: (← bytesFrom .nothing rest)
      else bytesFrom (.hex value (more - 1)) rest
  | .announced, c :: rest => if c = '{' then bytesFrom (.name []) rest else none
  | .name read, c :: rest =>
    if c = '}' then do return (← (named? read.reverse).bind byte?) :: (← bytesFrom .nothing rest)
    else bytesFrom (.name (c :: read)) rest

/-- The text without a pair of double quotes around it. -/
def unwrap (t : Text) : Text :=
  if 2 ≤ t.length ∧ t.head? = some ('"' : CodePoint) ∧ t.getLast? = some ('"' : CodePoint) then
    (t.drop 1).dropLast
  else t

/-- The path that a quoted form denotes; a form that denotes none stands for itself. -/
def decode (t : Text) : Text :=
  let inner := unwrap t
  if inner.contains ('\\' : CodePoint) then
    ((bytesFrom .nothing inner).bind Utf8.decode).getD inner
  else inner

end Path.Quoted

end AffectedTests
