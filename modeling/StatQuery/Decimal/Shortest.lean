import StatQuery.Decimal.Power

/-!
# Shortest decimals

The fewest decimal digits that identify a floating-point number. A number `m * 2 ^ q` stands for the
interval of reals that round to it; the numbers of a decimal grid that may lie in the interval are
the two neighbours of the value on that grid, so trying the grids from coarse to fine and both
neighbours on each finds a shortest decimal. All comparisons are between naturals.
-/

namespace StatQuery.Decimal

/-- A positive number `significand * 2 ^ exponent` on the binary grid. -/
structure Binary where
  significand : Nat
  exponent : Int
  /-- The gap to the next smaller number is half the gap to the next larger one. -/
  narrowBelow : Bool
  deriving DecidableEq, Repr

/-- The magnitude that a finite number's bits stand for. -/
def Binary.ofBits (bits : UInt64) : Binary :=
  let fraction := (bits &&& 0xFFFFFFFFFFFFF).toNat
  let biased := ((bits >>> 52) &&& 0x7FF).toNat
  if biased = 0 then ⟨fraction, -1074, false⟩
  else ⟨fraction + twoTo 52, (biased : Int) - 1075, fraction = 0 && 1 < biased⟩

/-- A decimal `digits * 10 ^ exponent`. -/
structure Scaled where
  digits : Nat
  exponent : Int
  deriving DecidableEq, Repr

/-- The exponent of the first digit, when the decimal is written with one digit before the point. -/
def Scaled.leading (x : Scaled) : Int := x.exponent + ((Nat.toDigits 10 x.digits).length - 1 : Nat)

/-- Moves the final zeros of the digits, at most `limit`, into the exponent. -/
def Scaled.strip : (limit : Nat) → Scaled → Scaled
  | 0, x => x
  | limit + 1, x =>
    if x.digits ≠ 0 ∧ x.digits % 10 = 0 then strip limit ⟨x.digits / 10, x.exponent + 1⟩ else x

/-- A common measure of the grid `10 ^ grid` and a quarter of the unit of `x`: the point `c` of the
grid and `k` quarters compare as `c * fst` and `k * snd`. -/
def measures (x : Binary) (grid : Int) : Nat × Nat :=
  let quarter := x.exponent - 2
  (tenTo grid.toNat * twoTo (-quarter).toNat, twoTo quarter.toNat * tenTo (-grid).toNat)

/-- Whether point `c` of the grid rounds to `x`: it lies between the midpoints to the neighbours of
`x`, and a midpoint counts when the significand is even. -/
def readsBack (x : Binary) (grid : Int) (c : Nat) : Bool :=
  let (point, quarter) := measures x grid
  let low := (4 * x.significand - if x.narrowBelow then 1 else 2) * quarter
  let high := (4 * x.significand + 2) * quarter
  if x.significand % 2 = 0 then low ≤ c * point && c * point ≤ high
  else low < c * point && c * point < high

/-- The point of the grid that rounds to `x` and is nearest to it, an even one on a tie. -/
def onGrid (x : Binary) (grid : Int) : Option Scaled :=
  let (point, quarter) := measures x grid
  let value := 4 * x.significand * quarter
  let below := value / point
  let above := below + 1
  let pick :=
    match readsBack x grid below, readsBack x grid above with
    | true, false => some below
    | false, true => some above
    | false, false => none
    | true, true =>
      let twice := 2 * value
      let middle := (below + above) * point
      if twice < middle then some below
      else if middle < twice then some above
      else some (if below % 2 = 0 then below else above)
  pick.map (⟨·, grid⟩)

/-- Raises an estimate of the leading decimal exponent, at most `limit` times, while `x` reaches the
next power of ten. -/
def climb (x : Binary) : (limit : Nat) → Int → Int
  | 0, estimate => estimate
  | limit + 1, estimate =>
    let (point, quarter) := measures x (estimate + 1)
    if point ≤ 4 * x.significand * quarter then climb x limit (estimate + 1) else estimate

/-- The exponent `k` with `10 ^ k ≤ x < 10 ^ (k + 1)`. The binary logarithm bounds it from below. -/
def leadingExponent (x : Binary) : Int :=
  climb x 4 (((x.significand.log2 : Int) + x.exponent) * 30103 / 100000 - 1)

/-- The first of the grids with `count`, `count + 1`, … digits that has a point for `x`. -/
def search (x : Binary) (leading : Int) : (limit : Nat) → (count : Nat) → Scaled
  | 0, count => ⟨4 * x.significand * (measures x (leading + 1 - count)).2 /
      (measures x (leading + 1 - count)).1, leading + 1 - count⟩
  | limit + 1, count =>
    match onGrid x (leading + 1 - count) with
    | some found => found
    | none => search x leading limit (count + 1)

/-- The shortest decimal that rounds to a positive number; seventeen digits always suffice. -/
def shortest (x : Binary) : Scaled := (search x (leadingExponent x) 17 1).strip 17

end StatQuery.Decimal
