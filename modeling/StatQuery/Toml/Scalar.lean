import StatQuery.Decimal.Nearest
import StatQuery.Toml.Basic

/-!
# Scalars in TOML

A scalar that is no string is one run of letters, digits and a few marks, and its kind is told from the
whole run: a truth value, a date or time, an integer or a float. A date and a time may also be two
runs with a space between them.
-/

namespace StatQuery.Toml.Scalar

/-- Whether a character may stand in a scalar. -/
def inRun (c : Char) : Bool :=
  c.isAlphanum || c = '+' || c = '-' || c = '_' || c = '.' || c = ':'

/-- Digits that may be grouped by single underscores between them, without the underscores. -/
def ungrouped (isDigit : Char → Bool) : List Char → Option (List Char)
  | [] => none
  | [c] => if isDigit c then some [c] else none
  | c :: '_' :: rest => if isDigit c then (ungrouped isDigit rest).map (c :: ·) else none
  | c :: rest => if isDigit c then (ungrouped isDigit rest).map (c :: ·) else none

/-- Decimal digits without a leading zero. -/
def wholeDigits (run : List Char) : Option (List Char) :=
  (ungrouped Char.isDigit run).filter fun digits => digits.length = 1 || digits.head? ≠ some '0'

/-- The value of a digit in any base up to sixteen. -/
def digitValue (c : Char) : Nat :=
  if c.isDigit then c.toNat - 48
  else if 'a' ≤ c then c.toNat - 87
  else c.toNat - 55

/-- The number that some digits stand for. -/
def value (base : Nat) (digits : List Char) : Nat :=
  digits.foldl (fun n c => n * base + digitValue c) 0

/-- Whether a character is a digit of a base up to sixteen. -/
def isDigitOf (base : Nat) (c : Char) : Bool :=
  (c.isDigit || ('a' ≤ c && c ≤ 'f') || ('A' ≤ c && c ≤ 'F')) && digitValue c < base

/-- Whether there is a minus sign, and what stands after the sign. -/
def splitSign : List Char → Bool × List Char
  | '-' :: rest => (true, rest)
  | '+' :: rest => (false, rest)
  | rest => (false, rest)

/-- An integer that fits 64 bits with a sign. -/
def inRange? (n : Int) : Option Int := 
  if -(twoTo 63 : Int) ≤ n ∧ n < twoTo 63 then some n else none

/-- The integer that a run stands for. A base other than ten has a prefix and no sign. -/
def integer? (run : List Char) : Option Int :=
  let based (base : Nat) (digits : List Char) : Option Int := do
    inRange? (value base (← ungrouped (isDigitOf base) digits))
  match run with
  | '0' :: 'x' :: digits => based 16 digits
  | '0' :: 'o' :: digits => based 8 digits
  | '0' :: 'b' :: digits => based 2 digits
  | _ => do
    let (negative, digits) := splitSign run
    let magnitude := value 10 (← wholeDigits digits)
    inRange? (if negative then -magnitude else magnitude)

/-- The exponent that follows an `e`. -/
def exponent? (run : List Char) : Option Int := do
  let (negative, digits) := splitSign run
  let magnitude := value 10 (← ungrouped Char.isDigit digits)
  return if negative then -magnitude else magnitude

/-- Whether a character may stand among decimal digits. -/
def inDigits (c : Char) : Bool := c.isDigit || c = '_'

/-- The digits after the point, and the exponent, that follow the digits before the point. One of
them must be there. -/
def afterWhole? : List Char → Option (List Char × Int)
  | '.' :: rest => do
    let fraction ← ungrouped Char.isDigit (rest.takeWhile inDigits)
    match rest.dropWhile inDigits with
    | [] => return (fraction, 0)
    | e :: exponent => if e = 'e' || e = 'E' then return (fraction, ← exponent? exponent) else none
  | e :: exponent => if e = 'e' || e = 'E' then return ([], ← exponent? exponent) else none
  | [] => none

/-- The float that a run stands for. A float too large to be written as one is refused unless it is
negative. -/
def float? (run : List Char) : Option Float := do
  let (negative, rest) := splitSign run
  let signed (x : Float) : Float := if negative then -x else x
  if rest = ['i', 'n', 'f'] then return signed (1.0 / 0.0)
  if rest = ['n', 'a', 'n'] then return signed (0.0 / 0.0)
  let whole ← wholeDigits (rest.takeWhile inDigits)
  let (fraction, exponent) ← afterWhole? (rest.dropWhile inDigits)
  let x := Decimal.nearest (value 10 (whole ++ fraction)) (exponent - fraction.length)
  if x.isInf && !negative then none else return signed x

/-- The number of days in a month. -/
def daysIn (year month : Nat) : Nat :=
  let leap := year % 4 = 0 && (year % 100 ≠ 0 || year % 400 = 0)
  if month = 2 then (if leap then 29 else 28)
  else if month = 4 || month = 6 || month = 9 || month = 11 then 30
  else 31

/-- A date at the front of a run, and what stands after it. -/
def date? : List Char → Option (List Char × List Char)
  | y₁ :: y₂ :: y₃ :: y₄ :: '-' :: m₁ :: m₂ :: '-' :: d₁ :: d₂ :: rest =>
    let digits := [y₁, y₂, y₃, y₄, m₁, m₂, d₁, d₂]
    let year := value 10 [y₁, y₂, y₃, y₄]
    let month := value 10 [m₁, m₂]
    let day := value 10 [d₁, d₂]
    if digits.all Char.isDigit && 1 ≤ month && month ≤ 12 && 1 ≤ day && day ≤ daysIn year month then
      some ([y₁, y₂, y₃, y₄, '-', m₁, m₂, '-', d₁, d₂], rest)
    else none
  | _ => none

/-- The fraction of a second to nine places, without final zeros, and its point if it is not zero. -/
def fractionText (digits : List Char) : List Char :=
  match ((digits.take 9).reverse.dropWhile (· = '0')).reverse with
  | [] => []
  | digits => '.' :: digits

/-- A time of day at the front of a run, and what stands after it. -/
def time? : List Char → Option (List Char × List Char)
  | h₁ :: h₂ :: ':' :: m₁ :: m₂ :: ':' :: s₁ :: s₂ :: rest =>
    let digits := [h₁, h₂, m₁, m₂, s₁, s₂]
    if digits.all Char.isDigit && value 10 [h₁, h₂] ≤ 23 && value 10 [m₁, m₂] ≤ 59 &&
        value 10 [s₁, s₂] ≤ 60 then
      let clock := [h₁, h₂, ':', m₁, m₂, ':', s₁, s₂]
      match rest with
      | '.' :: rest =>
        let fraction := rest.takeWhile Char.isDigit
        if fraction.isEmpty then none
        else some (clock ++ fractionText fraction, rest.dropWhile Char.isDigit)
      | _ => some (clock, rest)
    else none
  | _ => none

/-- The offset that a run stands for; none is one too. -/
def offset? : List Char → Option (List Char)
  | [] => some []
  | ['Z'] => some ['Z']
  | ['z'] => some ['Z']
  | [sign, h₁, h₂, ':', m₁, m₂] =>
    let digits := [h₁, h₂, m₁, m₂]
    if (sign = '+' || sign = '-') && digits.all Char.isDigit && value 10 [h₁, h₂] ≤ 23 &&
        value 10 [m₁, m₂] ≤ 59 then
      let sign := if digits.all (· = '0') then '+' else sign
      some [sign, h₁, h₂, ':', m₁, m₂]
    else none
  | _ => none

/-- The date, the time or both that a run stands for, in their one spelling. -/
def datetime? (run : List Char) : Option (List Char) :=
  match date? run with
  | some (date, []) => some date
  | some (date, delimiter :: rest) =>
    if delimiter = 'T' || delimiter = 't' || delimiter = ' ' then do
      let (time, rest) ← time? rest
      return date ++ 'T' :: time ++ (← offset? rest)
    else none
  | none =>
    match time? run with
    | some (time, []) => some time
    | _ => none

/-- The scalar that a run stands for. -/
def ofRun? (run : List Char) : Option Toml :=
  if run = ['t', 'r', 'u', 'e'] then some (.boolean true)
  else if run = ['f', 'a', 'l', 's', 'e'] then some (.boolean false)
  else
    match datetime? run with
    | some text => some (.datetime (String.ofList text))
    | none =>
      match integer? run with
      | some n => some (.integer n)
      | none => (float? run).map .float

/-- Whether a run is a date to which a time may still be added. -/
def isBareDate (run : List Char) : Bool :=
  match date? run with
  | some (_, []) => true
  | _ => false

/-- The run of a scalar at the front of a text, and what stands after it. A date takes the run after
a space with it. -/
def split (text : List Char) : List Char × List Char :=
  let run := text.takeWhile inRun
  let rest := text.dropWhile inRun
  match rest with
  | ' ' :: more =>
    let time := more.takeWhile inRun
    if isBareDate run && !time.isEmpty then (run ++ ' ' :: time, more.dropWhile inRun)
    else (run, rest)
  | _ => (run, rest)

end StatQuery.Toml.Scalar
