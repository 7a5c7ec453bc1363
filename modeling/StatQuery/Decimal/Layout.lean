import StatQuery.Decimal.Shortest

/-!
# Layout of decimals

How the digits of a number are written out. A whole number keeps a fraction of `.0`, so that its text
is told apart from an integer's; a layout decides which magnitudes get an exponent.
-/

namespace StatQuery.Decimal

/-- The decisions of a number format. -/
structure Layout where
  /-- Whether a number whose first digit has this exponent is written without an exponent. -/
  positional : Int → Bool

/-- Digits with a point, all places written out. -/
def Scaled.positional (x : Scaled) : String :=
  let digits := Nat.toDigits 10 x.digits
  let zeros (n : Nat) := List.replicate n '0'
  String.ofList <|
    if 0 ≤ x.exponent then digits ++ zeros x.exponent.toNat ++ ['.', '0']
    else
      let places := (-x.exponent).toNat
      if places < digits.length then
        digits.take (digits.length - places) ++ '.' :: digits.drop (digits.length - places)
      else '0' :: '.' :: zeros (places - digits.length) ++ digits

/-- One digit before the point, no empty fraction, and an exponent with its sign. -/
def Scaled.scientific (x : Scaled) : String :=
  let digits := Nat.toDigits 10 x.digits
  let fraction := if digits.length ≤ 1 then [] else '.' :: digits.drop 1
  let sign := if x.leading < 0 then '-' else '+'
  String.ofList (digits.take 1 ++ fraction ++ 'e' :: sign :: Nat.toDigits 10 x.leading.natAbs)

/-- The text of a floating-point number. -/
def Layout.render (layout : Layout) (x : Float) : String :=
  let sign := if x.toBits >>> 63 = 1 then "-" else ""
  if x.isNaN then "NaN"
  else if x.isInf then sign ++ "inf"
  else if x == 0 then sign ++ "0.0"
  else
    let shortest := shortest (Binary.ofBits x.toBits)
    sign ++ if layout.positional shortest.leading then shortest.positional else shortest.scientific

/-- Every place is written out, however long the number gets. -/
def Layout.plain : Layout := ⟨fun _ => true⟩

/-- Numbers from `0.00001` up to sixteen places before the point are written without an exponent. -/
def Layout.compact : Layout := ⟨fun leading => -5 ≤ leading && leading ≤ 15⟩

example : Layout.compact.render 0.00001 = "0.00001" := by decide +kernel
example : Layout.compact.render 1e-6 = "1e-6" := by decide +kernel
example : Layout.compact.render 1e15 = "1000000000000000.0" := by decide +kernel
example : Layout.compact.render 1.5e16 = "1.5e+16" := by decide +kernel
example : Layout.plain.render 2.5e22 = "25000000000000000000000.0" := by decide +kernel

end StatQuery.Decimal
