import StatQuery.Decimal.Power

/-!
# Nearest floating-point numbers

The double that lies nearest to a ratio of naturals, the even one on a tie. The significand is one
rounded quotient; everything is done on naturals, and the bits are put together at the end.
-/

namespace StatQuery.Decimal

/-- The quotient rounded to the nearest natural, to the even one on a tie. -/
def roundedQuotient (n d : Nat) : Nat :=
  let quotient := n / d
  let twice := 2 * (n % d)
  if twice < d then quotient
  else if d < twice then quotient + 1
  else quotient + quotient % 2

/-- Two naturals in the ratio of `n / d` to `2 ^ exponent`. -/
def scaled (n d : Nat) (exponent : Int) : Nat × Nat :=
  (n * twoTo (-exponent).toNat, d * twoTo exponent.toNat)

/-- The exponent of the unit of the double next to `n / d`: it leaves a significand of 53 bits, or
fewer below the least normal double. -/
def unitExponent (n d : Nat) : Int :=
  let estimate : Int := (n.log2 : Int) - d.log2 - 52
  let (top, bottom) := scaled n d estimate
  max (if top / bottom < twoTo 52 then estimate - 1 else estimate) (-1074)

/-- The bits of infinity. -/
def infinityBits : Nat := 0x7FF * twoTo 52

/-- The bits of the double nearest to `n / d`. -/
def nearestBits (n d : Nat) : Nat :=
  if n = 0 then 0
  else
    let unit := unitExponent n d
    let (top, bottom) := scaled n d unit
    min ((unit + 1074).toNat * twoTo 52 + roundedQuotient top bottom) infinityBits

/-- The double nearest to `digits * 10 ^ exponent`. Beyond a few hundred places the exponent alone
decides. -/
def nearest (digits : Nat) (exponent : Int) : Float :=
  let leading := exponent + (Nat.toDigits 10 digits).length
  if digits = 0 ∨ leading < -400 then 0
  else if 400 < leading then Float.ofBits infinityBits.toUInt64
  else Float.ofBits (nearestBits (digits * tenTo exponent.toNat) (tenTo (-exponent).toNat)).toUInt64

example : nearestBits 1 10 = 0x3FB999999999999A := by decide +kernel
/-- A subnormal, and the largest double. -/
example : nearestBits 5 (tenTo 324) = 1 ∧
    nearestBits (twoTo 1024 - twoTo 971) 1 = 0x7FEFFFFFFFFFFFFF := by decide +kernel
/-- A tie goes to the even neighbour, and anything above it does not. -/
example : nearestBits (twoTo 53 + 1) 1 = 0x4340000000000000 ∧
    nearestBits (twoTo 90 + twoTo 37 + 1) (twoTo 37) = 0x4340000000000001 := by decide +kernel

end StatQuery.Decimal
