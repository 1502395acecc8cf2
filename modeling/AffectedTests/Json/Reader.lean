import AffectedTests.Json.Basic
import AffectedTests.Limit
import AffectedTests.Text.Digit
/-!
# Reading JSON

A reader takes a text and gives a value with the rest of the text, or says why there is none: from some
place on the text is no JSON, or a part of it exceeds a limit. Of two such parts the first one counts.
Beside the standard's values the words `NaN`, `Infinity` and `-Infinity` are numbers.
-/

namespace AffectedTests

namespace Json

/-! ## Faults -/

/-- Why a text is no JSON. -/
inductive Cause
  | valueExpected
  | keyExpected
  | colonExpected
  | commaExpected
  | openString
  | controlCharacter
  | unknownEscape
  | badCodeEscape
  | extraData
  | byteOrderMark
  deriving DecidableEq

/-- The wording of a cause. -/
def Cause.wording : Cause → String
  | .valueExpected => "Expecting value"
  | .keyExpected => "Expecting property name enclosed in double quotes"
  | .colonExpected => "Expecting ':' delimiter"
  | .commaExpected => "Expecting ',' delimiter"
  | .openString => "Unterminated string starting at"
  | .controlCharacter => "Invalid control character at"
  | .unknownEscape => "Invalid \\escape"
  | .badCodeEscape => "Invalid \\uXXXX escape"
  | .extraData => "Extra data"
  | .byteOrderMark => "Unexpected UTF-8 BOM (decode using utf-8-sig)"

/-- A cause and the text that begins where it was found. -/
structure Fault where
  cause : Cause
  rest : Text

/-- Why nothing is read. -/
inductive ReadError
  | malformed (fault : Fault)
  | exceeds (limit : Limit)

/-- What a reader gives: a value and the rest of the text, or the reason why there is none. -/
abbrev Read (α : Type) := Except ReadError (α × Text)

/-- Gives up where the rest of the text begins. -/
def refuse {α : Type} (cause : Cause) (rest : Text) : Except ReadError α :=
  .error (.malformed ⟨cause, rest⟩)

/-- The cause of a fault and its place in the whole text, by line, column and offset. -/
def Fault.message (f : Fault) (whole : Text) : Text :=
  let offset := whole.length - f.rest.length
  let before := whole.take offset
  let line := before.count ('\n' : CodePoint) + 1
  let column := (before.reverse.takeWhile (· != ('\n' : CodePoint))).length + 1
  f.cause.wording ++ (": line " : Text) ++ Text.ofNat line ++ " column " ++ Text.ofNat column ++
    " (char " ++ Text.ofNat offset ++ ")"

/-! ## Blanks and words -/

/-- The blanks between the parts of a value. -/
def isGap (c : CodePoint) : Bool :=
  c == ' ' || c == '\t' || c == '\n' || c == '\r'

def skipGap (t : Text) : Text :=
  t.dropWhile isGap

/-! ## Numbers -/

/-- The digits that the standard knows. -/
def isPlainDigit (c : CodePoint) : Bool :=
  0x30 ≤ c.val && c.val ≤ 0x39

/-- The fraction after the whole part: a point and digits. -/
def fraction (t : Text) : Text × Text :=
  match t with
  | point :: rest =>
    let digits := rest.takeWhile isPlainDigit
    if point = '.' ∧ digits ≠ [] then (digits, rest.dropWhile isPlainDigit) else ([], t)
  | [] => ([], t)

/-- The power of ten after the digits, if one is written. -/
def exponent? (t : Text) : Option (Int × Text) :=
  match t with
  | mark :: rest =>
    if mark = 'e' ∨ mark = 'E' then
      let negative := rest.head? == some ('-' : CodePoint)
      let body := if negative ∨ rest.head? = some ('+' : CodePoint) then rest.drop 1 else rest
      let digits := body.takeWhile isPlainDigit
      if digits.isEmpty then none
      else
        let power : Int := Text.digitsValue digits
        some (if negative then -power else power, body.dropWhile isPlainDigit)
    else none
  | [] => none

/-- A number without its sign: a zero, or digits that begin with another one, then perhaps a fraction
and a power of ten. Only a number without both is an integer. -/
def unsigned? (negative : Bool) (t : Text) : Option (Json × Text) :=
  let digits := t.takeWhile isPlainDigit
  let whole := if digits.head? = some ('0' : CodePoint) then digits.take 1 else digits
  if whole.isEmpty then none
  else
    let rest := t.drop whole.length
    let (places, rest) := fraction rest
    match places, exponent? rest with
    | [], none =>
      let n : Int := Text.digitsValue whole
      some (.integer (if negative then -n else n), rest)
    | _, power =>
      let (power, rest) := power.getD (0, rest)
      let digits := Text.digitsValue (whole ++ places)
      some (.real (Binary64.ofDecimal negative digits (power - places.length)), rest)

def number? (t : Text) : Option (Json × Text) :=
  if t.head? = some ('-' : CodePoint) then unsigned? true (t.drop 1) else unsigned? false t

/-- The words that are values, and their values. -/
def words : List (Text × Json) :=
  [("null", .null), ("true", .bool true), ("false", .bool false), ("NaN", .real .notANumber),
    ("Infinity", .real (.infinite false)), ("-Infinity", .real (.infinite true))]

def word? (t : Text) : Option (Json × Text) :=
  words.findSome? fun (word, value) =>
    if t.startsWith word then some (value, t.drop word.length) else none

/-- A word or a number. No integer begins with a needless zero, so its size tells how many digits it has. -/
def atom (t : Text) : Read Json :=
  match word? t <|> number? t with
  | some (.integer i, rest) =>
    if i.natAbs < Nat.pow 10 Limit.digits.size then .ok (.integer i, rest) else .error (.exceeds .digits)
  | some read => .ok read
  | none => refuse .valueExpected t

/-! ## Strings -/

/-- The escapes of one letter. -/
def letterEscapes : List (CodePoint × CodePoint) :=
  [('"', '"'), ('\\', '\\'), ('/', '/'), ('b', '\x08'), ('f', '\x0c'), ('n', '\n'), ('r', '\r'),
    ('t', '\t')]

/-- The value of a hexadecimal digit. -/
def hexDigit? (c : CodePoint) : Option Nat :=
  let n := c.val
  if 0x30 ≤ n ∧ n ≤ 0x39 then some (n - 0x30)
  else if 0x41 ≤ n ∧ n ≤ 0x46 then some (n - 0x41 + 10)
  else if 0x61 ≤ n ∧ n ≤ 0x66 then some (n - 0x61 + 10)
  else none

/-- The code point of four hexadecimal digits. -/
def code? (a b c d : CodePoint) : Option CodePoint := do
  return CodePoint.ofNat
    ((← hexDigit? a) * 0x1000 + (← hexDigit? b) * 0x100 + (← hexDigit? c) * 0x10 + (← hexDigit? d))

/-- What follows the opening quote of a string, up to its closing quote. `start` is the text from the
opening quote on. -/
def stringBody (start : Text) : Text → Read Text
  | [] => refuse .openString start
  | c :: rest =>
    if c = '"' then .ok ([], rest)
    else if c = '\\' then
      match rest with
      | [] => refuse .openString start
      | letter :: after =>
        if letter = 'u' then
          match after with
          | a :: b :: d :: e :: after =>
            match code? a b d e, after.isEmpty with
            | some point, false => (stringBody start after).map fun (t, rest) => (point :: t, rest)
            | _, _ => refuse .badCodeEscape rest
          | _ => refuse .badCodeEscape rest
        else
          match letterEscapes.lookup letter with
          | some point => (stringBody start after).map fun (t, rest) => (point :: t, rest)
          | none => refuse .unknownEscape (c :: rest)
    else if c.val < 0x20 then refuse .controlCharacter (c :: rest)
    else (stringBody start rest).map fun (t, rest) => (c :: t, rest)

/-- Joins each leading surrogate with a trailing one after it. -/
def joinSurrogates : Text → Text
  | [] => []
  | c :: rest =>
    match joinSurrogates rest with
    | d :: rest' =>
      if 0xD800 ≤ c.val ∧ c.val ≤ 0xDBFF ∧ 0xDC00 ≤ d.val ∧ d.val ≤ 0xDFFF then
        CodePoint.ofNat (0x10000 + (c.val - 0xD800) * 0x400 + (d.val - 0xDC00)) :: rest'
      else c :: d :: rest'
    | [] => [c]

/-- A string, from its opening quote on. -/
def string (t : Text) : Read Text :=
  (stringBody t (t.drop 1)).map fun (body, rest) => (joinSurrogates body, rest)

/-! ## Values -/

mutual

/-- A value at the front of a text. `fuel` bounds the number of parts, and `room` the number of arrays and
objects within one another. -/
def value : (fuel room : Nat) → Text → Read Json
  | 0, _, t => refuse .valueExpected t
  | fuel + 1, room, t =>
    match t with
    | [] => refuse .valueExpected t
    | c :: rest =>
      if c = '"' then (string t).map fun (s, rest) => (.text s, rest)
      else if c = '[' then
        match room with
        | 0 => .error (.exceeds .nesting)
        | room + 1 =>
          let rest := skipGap rest
          if rest.head? = some (']' : CodePoint) then .ok (.array [], rest.drop 1)
          else (items fuel room rest).map fun (xs, rest) => (.array xs, rest)
      else if c = '{' then
        match room with
        | 0 => .error (.exceeds .nesting)
        | room + 1 =>
          let rest := skipGap rest
          if rest.head? = some ('}' : CodePoint) then .ok (.object [], rest.drop 1)
          else (entries fuel room [] rest).map fun (xs, rest) => (.object xs, rest)
      else atom t

/-- The items of an array up to its closing bracket. -/
def items : (fuel room : Nat) → Text → Except ReadError (List Json × Text)
  | 0, _, t => refuse .valueExpected t
  | fuel + 1, room, t => do
    let (first, rest) ← value fuel room t
    match skipGap rest with
    | [] => refuse .commaExpected []
    | c :: rest =>
      if c = ']' then .ok ([first], rest)
      else if c = ',' then (items fuel room (skipGap rest)).map fun (xs, rest) => (first :: xs, rest)
      else refuse .commaExpected (c :: rest)

/-- The entries of an object up to its closing brace, after the entries read so far. -/
def entries : (fuel room : Nat) → List (Text × Json) → Text →
    Except ReadError (List (Text × Json) × Text)
  | 0, _, _, t => refuse .valueExpected t
  | fuel + 1, room, sofar, t => do
    if t.head? ≠ some ('"' : CodePoint) then refuse .keyExpected t
    else
      let (key, rest) ← string t
      match skipGap rest with
      | [] => refuse .colonExpected []
      | colon :: rest =>
        if colon ≠ ':' then refuse .colonExpected (colon :: rest)
        else
          let (first, rest) ← value fuel room (skipGap rest)
          let sofar := Table.put key first sofar
          match skipGap rest with
          | [] => refuse .commaExpected []
          | c :: rest =>
            if c = '}' then .ok (sofar, rest)
            else if c = ',' then entries fuel room sofar (skipGap rest)
            else refuse .commaExpected (c :: rest)

end

/-- The mark at the front of a text that gives the order of its bytes. -/
def orderMark : CodePoint := '\ufeff'

/-- Reads a whole text as one value. Every second part takes at least one code point, so twice the
length of the text is enough fuel. -/
def read (t : Text) : Except ReadError Json :=
  if t.head? = some orderMark then refuse .byteOrderMark t
  else do
    let (v, rest) ← value (2 * t.length + 2) Limit.nesting.size (skipGap t)
    match skipGap rest with
    | [] => .ok v
    | rest => refuse .extraData rest

end Json

end AffectedTests
