import StatQuery.Json.Cursor
import StatQuery.Decimal.Layout
import StatQuery.Decimal.Power

/-!
# Numbers in JSON

A number without point and exponent is an integer if it fits 64 bits. Any other number is a float,
made from the first nineteen or so digits and a power of ten: digits that no longer fit the
significand before the point only raise the exponent, and later ones are ignored.
-/

namespace StatQuery.Json

/-- A number as read. -/
inductive Numeral where
  | integer (n : Int)
  | float (x : Float)
  deriving DecidableEq, Repr

def Numeral.found : Numeral → Found
  | integer n => .integer n
  | float x => .float (Decimal.Layout.compact.render x)

/-- The largest significand. -/
def maxSignificand : Nat := twoTo 64 - 1

/-- The value of a digit. -/
def digitValue (b : UInt8) : Nat := b.toNat - 48

/-- The significand of the digits before the point, and how many of them no longer fit it. -/
def absorbWhole (digits : List UInt8) : Nat × Nat :=
  digits.foldl (fun (significand, dropped) b =>
    if 0 < dropped then (significand, dropped + 1)
    else
      let next := significand * 10 + digitValue b
      if next ≤ maxSignificand then (next, 0) else (significand, 1)) (0, 0)

/-- The significand with the digits after the point that fit it, and their number. -/
def absorbFraction : (significand : Nat) → List UInt8 → Nat × Nat
  | significand, [] => (significand, 0)
  | significand, b :: digits =>
    let next := significand * 10 + digitValue b
    if next ≤ maxSignificand then
      let (result, count) := absorbFraction next digits
      (result, count + 1)
    else (significand, 0)

/-- A power of ten up to `10 ^ 308`. -/
def powerOfTen (n : Nat) : Float := Float.ofScientific 1 false n

/-- Divides by `10 ^ 308` until the exponent is at most 308 or nothing is left. -/
def scaleDown : (limit : Nat) → Float → (exponent : Nat) → Float
  | 0, x, _ => x
  | limit + 1, x, exponent =>
    if exponent ≤ 308 then x / powerOfTen exponent
    else if x == 0 then x
    else scaleDown limit (x / powerOfTen 308) (exponent - 308)

/-- `significand * 10 ^ exponent`, unless it is out of range. -/
def magnitude? (significand : Nat) (exponent : Int) : Option Float :=
  let x := significand.toUInt64.toFloat
  match exponent with
  | .ofNat n =>
    if n ≤ 308 then
      let scaled := x * powerOfTen n
      if scaled.isInf then none else some scaled
    else if x == 0 then some x
    else none
  | .negSucc n => some (scaleDown (n / 308 + 2) x (n + 1))

namespace Reader

/-- Takes decimal digits. -/
def digits : Reader (List UInt8) := takeRun isDigit

/-- Negates a number after a minus sign. -/
def signed (negative : Bool) (x : Float) : Float := if negative then -x else x

/-- The float with a significand and an exponent. -/
def float (negative : Bool) (significand : Nat) (exponent : Int) : Reader Numeral :=
  match magnitude? significand exponent with
  | some x => return .float (signed negative x)
  | none => failHere .numberOutOfRange

/-- The largest magnitude of an exponent as written. -/
def maxExponent : Nat := twoTo 31 - 1

/-- The value of an exponent's digits, or how many of them pass the largest exponent. -/
def exponentValue : (value : Nat) → (taken : Nat) → List UInt8 → Except Nat Nat
  | value, _, [] => .ok value
  | value, taken, b :: digits =>
    let next := value * 10 + digitValue b
    if next ≤ maxExponent then exponentValue next (taken + 1) digits else .error (taken + 1)

/-- The float whose exponent follows an `e`; `exponent` is what the digits so far add to it. An
exponent beyond every bound gives zero or is out of range, at the digit that passes the bound. -/
def exponentPart (negative : Bool) (significand : Nat) (exponent : Int) : Reader Numeral := do
  advance
  let down ← do
    match ← peek with
    | some 0x2B => advance; pure false
    | some 0x2D => advance; pure true
    | _ => pure false
  match ← peek with
  | none => failHere .endOfValue
  | some b =>
    if isDigit b then
      let start ← get
      let written ← digits
      match exponentValue 0 0 written with
      | .ok value =>
        let total := if down then exponent - value else exponent + value
        float negative significand (max (-(twoTo 31 : Int)) (min total maxExponent))
      | .error taken =>
        if significand ≠ 0 && !down then
          throw ⟨.numberOutOfRange, start.position.afterAll (written.take taken)⟩
        else return .float (signed negative 0)
    else
      advance
      failHere .invalidNumber

/-- The number whose digits before the point have been taken; `dropped` of them did not fit. -/
def afterWhole (negative : Bool) (significand dropped : Nat) : Reader Numeral := do
  match ← peek with
  | some 0x2E =>
    advance
    let written ← digits
    if written.isEmpty then
      match ← peek with
      | some _ => failNext .invalidNumber
      | none => failNext .endOfValue
    else
      let (significand, count) := absorbFraction significand written
      let exponent := (dropped : Int) - count
      match ← peek with
      | some 0x65 | some 0x45 => exponentPart negative significand exponent
      | _ => float negative significand exponent
  | some 0x65 | some 0x45 => exponentPart negative significand dropped
  | _ =>
    if 0 < dropped then float negative significand dropped
    else if !negative then return .integer significand
    else if significand = 0 || twoTo 63 < significand then
      return .float (-significand.toUInt64.toFloat)
    else return .integer (-significand)

/-- The number after its sign, if any. -/
def number (negative : Bool) : Reader Numeral := do
  match ← peek with
  | none => failHere .endOfValue
  | some 0x30 =>
    advance
    match ← peek with
    | some b => if isDigit b then failNext .invalidNumber else afterWhole negative 0 0
    | none => afterWhole negative 0 0
  | some b =>
    if isDigit b then
      let (significand, dropped) := absorbWhole (← digits)
      afterWhole negative significand dropped
    else
      advance
      failHere .invalidNumber

end Reader

end StatQuery.Json
