/-!
# Binary64 magnitudes

Magnitudes of binary64 floating point values, kept exactly: a finite one is `mantissa * 2 ^
exponent` with at most 53 bits of mantissa and an exponent of at least -1074. `ofRatio` takes a
quotient of natural numbers to the nearest such value, ties to the even mantissa; a product and a
quotient are the exact result rounded in this way.
-/

namespace PodDesk

/-- A non-negative binary64 value. -/
inductive Magnitude where
  | finite (mantissa : Nat) (exponent : Int)
  | infinite
  deriving DecidableEq, Repr

namespace Magnitude

/-- `scaleUp mantissa exponent` is the numerator of a finite value as a quotient. -/
def scaleUp (mantissa : Nat) (exponent : Int) : Nat :=
  mantissa * Nat.pow 2 exponent.toNat

/-- `scaleDown exponent` is the denominator that belongs to `scaleUp`. -/
def scaleDown (exponent : Int) : Nat :=
  Nat.pow 2 (-exponent).toNat

/-- `roundHalfEven num den` is the natural number nearest to the quotient, ties to the even one. -/
def roundHalfEven (num den : Nat) : Nat :=
  let quotient := num / den
  let rest := num % den
  if 2 * rest < den then quotient
  else if den < 2 * rest then quotient + 1
  else if quotient % 2 = 0 then quotient else quotient + 1

/-- The largest exponent `e` with `2 ^ e ≤ num / den`, for a positive quotient. -/
def log2Ratio (num den : Nat) : Int :=
  let guess : Int := (num.log2 : Int) - (den.log2 : Int)
  if den * Nat.pow 2 guess.toNat ≤ num * Nat.pow 2 (-guess).toNat then guess else guess - 1

/-- `exponentBound` is the power of two that finite values are below. -/
def exponentBound : Nat := 1024

/-- The binary64 value nearest to the quotient `num / den`. -/
def ofRatio (num den : Nat) : Magnitude :=
  if num = 0 then
    .finite 0 0
  else
    let exponent := max (log2Ratio num den - 52) (-1074)
    let mantissa := roundHalfEven (num * scaleDown exponent) (den * Nat.pow 2 exponent.toNat)
    if Nat.pow 2 exponentBound ≤ scaleUp mantissa exponent then .infinite else .finite mantissa exponent

/-- `ofNat n` is the binary64 value nearest to `n`. -/
def ofNat (n : Nat) : Magnitude :=
  ofRatio n 1

/-- The binary64 value nearest to `digits * 10 ^ power`. Beyond 400 decimal places in either
direction the answer is known without computing the power. -/
def ofDecimal (digits : Nat) (power : Int) : Magnitude :=
  if digits = 0 then .finite 0 0
  else
    let places : Int := (digits.log2 / 3 : Nat)
    if 400 < power then .infinite
    else if power + places < -400 then .finite 0 0
    else ofRatio (digits * Nat.pow 10 power.toNat) (Nat.pow 10 (-power).toNat)

/-- `x.timesNat n` is the product with `n`, rounded to binary64. -/
def timesNat (x : Magnitude) (n : Nat) : Magnitude :=
  match x with
  | .infinite => .infinite
  | .finite m e => ofRatio (scaleUp m e * n) (scaleDown e)

/-- `x.overNat n` is the quotient by the positive number `n`, rounded to binary64. -/
def overNat (x : Magnitude) (n : Nat) : Magnitude :=
  match x with
  | .infinite => .infinite
  | .finite m e => ofRatio (scaleUp m e) (scaleDown e * n)

/-- `Magnitude.floor?` is the whole part, and nothing for infinity. -/
def floor? : Magnitude → Option Nat
  | .infinite => none
  | .finite m e => some (scaleUp m e / scaleDown e)

/-- `Magnitude.roundHalfUp?` is the nearest natural number, halves upwards, and nothing for
infinity. -/
def roundHalfUp? : Magnitude → Option Nat
  | .infinite => none
  | .finite m e => some ((2 * scaleUp m e + scaleDown e) / (2 * scaleDown e))

end Magnitude

end PodDesk
