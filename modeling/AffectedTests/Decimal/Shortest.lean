import AffectedTests.Decimal.Binary
import AffectedTests.Text.Digit
/-!
# Shortest decimals

The decimal of a floating-point number is the one with the fewest digits among those that denote it,
and among these the nearest. How its digits are laid out is a record of its own.
-/

namespace AffectedTests

namespace Decimal

/-! ## Digits -/

/-- A positive number `mantissa * 2 ^ exponent` in quarters of its last binary place, with the two ends
of the range of decimals that denote it. -/
structure Target where
  low : Nat
  value : Nat
  high : Nat
  exponent : Int
  /-- Whether the ends belong to the range. -/
  closed : Bool

/-- Below a power of two the neighbours are only half as far away. -/
def Target.of (mantissa : Nat) (exponent : Int) : Target :=
  { low :=
      if mantissa = Binary64.leastMantissa ∧ Binary64.minExponent < exponent then 4 * mantissa - 1
      else 4 * mantissa - 2
    value := 4 * mantissa
    high := 4 * mantissa + 2
    exponent := exponent - 2
    closed := mantissa % 2 == 0 }

/-- Order of `a * 10 ^ scale` and `b * 2 ^ exponent`. -/
def compareScaled (a : Nat) (scale : Int) (b : Nat) (exponent : Int) : Ordering :=
  compare (a * Nat.pow 10 scale.toNat * Nat.pow 2 (-exponent).toNat)
    (b * Nat.pow 2 exponent.toNat * Nat.pow 10 (-scale).toNat)

/-- Whether a decimal denotes the target. -/
def Target.admits (t : Target) (digits : Nat) (scale : Int) : Bool :=
  match compareScaled digits scale t.low t.exponent, compareScaled digits scale t.high t.exponent with
  | .gt, .lt => true
  | .eq, _ => t.closed
  | _, .eq => t.closed
  | _, _ => false

/-- The place of the first digit: the least power of ten above the target. -/
def Target.place (t : Target) : Int :=
  let num := t.value * Nat.pow 2 t.exponent.toNat
  let den := Nat.pow 2 (-t.exponent).toNat
  if den ≤ num then Binary64.digitCount (num / den)
  else
    let count := Binary64.digitCount (den / num)
    if Nat.pow 10 (count - 1) * num < den then 1 - (count : Int) else 2 - (count : Int)

/-- The largest decimal on a grid that does not exceed the target. -/
def Target.floor (t : Target) (scale : Int) : Nat :=
  t.value * Nat.pow 2 t.exponent.toNat * Nat.pow 10 (-scale).toNat /
    (Nat.pow 2 (-t.exponent).toNat * Nat.pow 10 scale.toNat)

/-- The decimal with a given number of digits that denotes the target, if there is one. -/
def Target.withDigits? (t : Target) (count : Nat) : Option (Nat × Int) :=
  let scale := t.place - count
  let below := t.floor scale
  let above := below + 1
  match t.admits below scale, t.admits above scale with
  | false, false => none
  | true, false => some (below, scale)
  | false, true => some (above, scale)
  | true, true =>
    match compareScaled (below + above) scale (2 * t.value) t.exponent with
    | .gt => some (below, scale)
    | .lt => some (above, scale)
    | .eq => some (if below % 2 = 0 then below else above, scale)

/-- Drops the zeros at the end of a numeral. -/
def dropZeros (digits : List Char) : List Char :=
  (digits.reverse.dropWhile (· == '0')).reverse

/-- The digits of the shortest decimal of a positive number, and the place of the first of them. -/
def shortest (mantissa : Nat) (exponent : Int) : List Char × Int :=
  let t := Target.of mantissa exponent
  let (digits, scale) :=
    ((List.range 17).findSome? fun i => t.withDigits? (i + 1)).getD
      (t.value * Nat.pow 2 t.exponent.toNat * Nat.pow 5 (-t.exponent).toNat, min t.exponent 0)
  let numeral := Nat.toDigits 10 digits
  (dropZeros numeral, numeral.length + scale)

/-! ## Written form -/

/-- How a decimal is written. -/
structure Layout where
  /-- Places of the first digit for which no exponent is written: from the first to the last. -/
  firstPlain : Int
  lastPlain : Int
  /-- The least number of digits of an exponent. -/
  exponentWidth : Nat
  infinity : String
  notANumber : String

/-- A numeral with zeros in front up to a width. -/
def padded (width n : Nat) : List Char :=
  let digits := Nat.toDigits 10 n
  List.replicate (width - digits.length) '0' ++ digits

/-- The digits around a point, with at least one digit on either side. -/
def plain (digits : List Char) (place : Int) : List Char :=
  if place ≤ 0 then ['0', '.'] ++ List.replicate (-place).toNat '0' ++ digits
  else
    let whole := place.toNat
    if digits.length ≤ whole then digits ++ List.replicate (whole - digits.length) '0' ++ ['.', '0']
    else digits.take whole ++ ['.'] ++ digits.drop whole

/-- One digit before the point, and the power of ten after the digits. -/
def scientific (width : Nat) (digits : List Char) (place : Int) : List Char :=
  let power := place - 1
  let fraction := match digits.drop 1 with
    | [] => []
    | more => '.' :: more
  digits.take 1 ++ fraction ++ ['e', if power < 0 then '-' else '+'] ++ padded width power.natAbs

/-- The text of a number. -/
def write (style : Layout) : Binary64 → Text
  | .notANumber => style.notANumber
  | .infinite negative => signed negative style.infinity.toList
  | .finite negative mantissa exponent =>
    if mantissa = 0 then signed negative ['0', '.', '0']
    else
      let (digits, place) := shortest mantissa exponent
      signed negative <|
        if style.firstPlain ≤ place ∧ place ≤ style.lastPlain then plain digits place
        else scientific style.exponentWidth digits place
where
  /-- Puts a minus sign before a negative number. -/
  signed (negative : Bool) (body : List Char) : Text :=
    ((if negative then ['-'] else []) ++ body).map CodePoint.ofChar

end Decimal

end AffectedTests
