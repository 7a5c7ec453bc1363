import StatQuery.Decimal.Power

/-!
# Durations

Spans of time in whole nanoseconds, and their text: the largest unit that fits at least once, with
the rest as a fraction.
-/

namespace StatQuery

/-- A span of time. -/
structure Duration where
  nanoseconds : Nat
  deriving DecidableEq, Repr, Inhabited

namespace Duration

def ofMilliseconds (n : Nat) : Duration := ⟨n * tenTo 6⟩

/-- The whole seconds of a span. -/
def seconds (d : Duration) : Nat := d.nanoseconds / tenTo 9

instance : LE Duration := ⟨fun a b => a.nanoseconds ≤ b.nanoseconds⟩

instance (a b : Duration) : Decidable (a ≤ b) :=
  inferInstanceAs (Decidable (a.nanoseconds ≤ b.nanoseconds))

/-- The digits of a rest below `10 ^ places`, without final zeros. -/
def fraction (rest places : Nat) : List Char :=
  let digits := Nat.toDigits 10 rest
  let padded := List.replicate (places - digits.length) '0' ++ digits
  (padded.reverse.dropWhile (· = '0')).reverse

/-- A number of units of `10 ^ places` nanoseconds. -/
def inUnits (n places : Nat) (unit : String) : String :=
  let rest := n % tenTo places
  let point := if rest = 0 then [] else '.' :: fraction rest places
  toString (n / tenTo places) ++ String.ofList point ++ unit

/-- The span in seconds, milliseconds, microseconds or nanoseconds. -/
def text (d : Duration) : String :=
  let n := d.nanoseconds
  if tenTo 9 ≤ n then inUnits n 9 "s"
  else if tenTo 6 ≤ n then inUnits n 6 "ms"
  else if tenTo 3 ≤ n then inUnits n 3 "µs"
  else inUnits n 0 "ns"

example : (⟨0⟩ : Duration).text = "0ns" := by decide +kernel
example : (⟨1500⟩ : Duration).text = "1.5µs" := by decide +kernel
example : (⟨1001000000⟩ : Duration).text = "1.001s" := by decide +kernel
example : (ofMilliseconds 50).text = "50ms" := by decide +kernel

end Duration

end StatQuery
