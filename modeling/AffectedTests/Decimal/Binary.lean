/-!
# Binary floating point

Numbers with 53 binary digits and exponents from -1074 to 971, with infinities and a value that is no
number. A decimal numeral denotes the nearest of them; of two equally near ones the even one.
-/

namespace AffectedTests

/-- A binary floating-point number; the finite ones are a sign and `mantissa * 2 ^ exponent`. -/
inductive Binary64
  | finite (negative : Bool) (mantissa : Nat) (exponent : Int)
  | infinite (negative : Bool)
  | notANumber
  deriving DecidableEq

namespace Binary64

/-- The least exponent. -/
def minExponent : Int := -1074

/-- The greatest exponent. -/
def maxExponent : Int := 971

/-- The least mantissa with 53 binary digits. -/
def leastMantissa : Nat := 0x10000000000000

/-- The quotient rounded to the nearest whole number, a half to the even neighbour. -/
def roundDiv (num den : Nat) : Nat :=
  let quotient := num / den
  let twice := 2 * (num % den)
  if den < twice ∨ (twice = den ∧ quotient % 2 = 1) then quotient + 1 else quotient

/-- The fraction divided by a power of two. -/
def scaleDown (num den : Nat) (exponent : Int) : Nat × Nat :=
  if 0 ≤ exponent then (num, den * Nat.pow 2 exponent.toNat)
  else (num * Nat.pow 2 (-exponent).toNat, den)

/-- The exponent at which a positive fraction has 53 digits before the point, if it is not too small. -/
def fittingExponent (num den : Nat) : Int :=
  let guess : Int := (num.log2 : Int) - den.log2 - 52
  let (n, d) := scaleDown num den guess
  max (if n / d < leastMantissa then guess - 1 else guess) minExponent

/-- The number nearest to a fraction. -/
def ofFraction (negative : Bool) (num den : Nat) : Binary64 :=
  if num = 0 then .finite negative 0 0
  else
    let exponent := fittingExponent num den
    let (n, d) := scaleDown num den exponent
    let mantissa := roundDiv n d
    let (mantissa, exponent) :=
      if mantissa = 2 * leastMantissa then (leastMantissa, exponent + 1) else (mantissa, exponent)
    if maxExponent < exponent then .infinite negative else .finite negative mantissa exponent

/-- How many decimal digits a number has. -/
def digitCount (n : Nat) : Nat :=
  (Nat.toDigits 10 n).length

/-- The number nearest to `digits * 10 ^ scale`. Beyond the four-hundredth place every numeral is too
large or too small to matter. -/
def ofDecimal (negative : Bool) (digits : Nat) (scale : Int) : Binary64 :=
  let place := (digitCount digits : Int) + scale
  if digits = 0 ∨ place < -400 then .finite negative 0 0
  else if 400 < place then .infinite negative
  else if 0 ≤ scale then ofFraction negative (digits * Nat.pow 10 scale.toNat) 1
  else ofFraction negative digits (Nat.pow 10 (-scale).toNat)

end Binary64

end AffectedTests
