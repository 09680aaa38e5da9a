/-!
# Binary floating-point numbers of 64 bits

A number is a sign, a mantissa of at most 53 bits and an exponent, or one of the special values.
All arithmetic is on naturals and integers, so results are exact until the one rounding step,
`ofRatio`, which goes to the nearest number and on a tie to the one with the even mantissa.
-/

namespace TapeMachine

/-- A number. `finite negative m e` is `m * 2 ^ e`, with a sign that zero has too. -/
inductive Binary64 where
  | finite (negative : Bool) (mantissa : Nat) (exponent : Int)
  | infinite (negative : Bool)
  | nan
  deriving DecidableEq, Repr

namespace Binary64

/-- The least exponent. -/
def leastExponent : Int := -1074

/-- The greatest exponent of a number with a full mantissa. -/
def greatestExponent : Int := 971

/-- A power with an integer exponent, for whole numbers: one if the exponent is negative, so that
`power b e` and `power b (-e)` are the numerator and the denominator of `b ^ e`. -/
def power (base : Nat) (exponent : Int) : Nat := Nat.pow base exponent.toNat

/-- The least mantissa of 53 bits. -/
def leastFullMantissa : Nat := power 2 52

/-- The least mantissa that is too great. -/
def mantissaBound : Nat := power 2 53

/-- The quotient of two naturals, rounded to the nearest integer and on a tie to the even one. -/
def roundDiv (num den : Nat) : Nat :=
  let q := num / den
  let r := num % den
  if 2 * r < den then q
  else if den < 2 * r then q + 1
  else if q % 2 = 0 then q else q + 1

/-- The numerator and denominator of `num / den` divided by `2 ^ e`. -/
def scaled (num den : Nat) (e : Int) : Nat × Nat :=
  (num * power 2 (-e), den * power 2 e)

/-- The exponent at which `num / den` has a mantissa of 53 bits, or the least exponent. -/
def exponentOf (num den : Nat) : Int :=
  let guess : Int := (num.log2 : Int) - den.log2 - 52
  let (n, d) := scaled num den guess
  let e := if n / d < leastFullMantissa then guess - 1 else guess
  max e leastExponent

/-- The number nearest to `num / den`, for a positive denominator. -/
def ofRatio (negative : Bool) (num den : Nat) : Binary64 :=
  if num = 0 then .finite negative 0 leastExponent
  else
    let e := exponentOf num den
    let (n, d) := scaled num den e
    let m := roundDiv n d
    let (m, e) := if m = mantissaBound then (leastFullMantissa, e + 1) else (m, e)
    if greatestExponent < e then .infinite negative else .finite negative m e

/-- The number nearest to `digits * 10 ^ exponent`. Exponents that no digit can make up for are cut
short, so that no huge power is computed. -/
def ofDecimal (negative : Bool) (digits : Nat) (exponent : Int) : Binary64 :=
  let leading : Int := exponent + (Nat.toDigits 10 digits).length
  if digits = 0 ∨ leading < -400 then .finite negative 0 leastExponent
  else if 400 < leading then .infinite negative
  else ofRatio negative (digits * power 10 exponent) (power 10 (-exponent))

/-- An integer with a sign and a magnitude. -/
def signedInt (negative : Bool) (magnitude : Nat) : Int :=
  if negative then -(magnitude : Int) else magnitude

/-- The integer nearest to a finite number, and on a tie the even one. -/
def nearestInt? : Binary64 → Option Int
  | .finite negative m e => some (signedInt negative (roundDiv (m * power 2 e) (power 2 (-e))))
  | _ => none

/-- The integer that a number is, if it is one. -/
def integer? : Binary64 → Option Int
  | .finite negative m e =>
    let num := m * power 2 e
    let den := power 2 (-e)
    if num % den = 0 then some (signedInt negative (num / den)) else none
  | _ => none

/-- Is the number finite? -/
def isFinite : Binary64 → Bool
  | .finite _ _ _ => true
  | _ => false

/-- Is the number zero, of either sign? -/
def isZero : Binary64 → Bool
  | .finite _ m _ => m == 0
  | _ => false

/-- Is the number less than zero? -/
def isNegative : Binary64 → Bool
  | .finite negative m _ => negative && m != 0
  | .infinite negative => negative
  | .nan => false

/-- The quotient of an integer and a positive natural. -/
def quotient (n : Int) (d : Nat) : Binary64 := ofRatio (n < 0) n.natAbs d

/-- The product with a natural. -/
def scale (x : Binary64) (k : Nat) : Binary64 :=
  match x with
  | .finite negative m e => ofRatio negative (m * k * power 2 e) (power 2 (-e))
  | other => other

end Binary64

end TapeMachine
