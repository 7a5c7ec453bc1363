import StatQuery.Json.Basic
import StatQuery.Json.Text
import StatQuery.Json.Number

/-!
# Reading JSON values

Lists and objects are read by loops over a reader for their parts, so that a whole value and a typed
field share them. Brackets nest to a limited depth: `valueWithin n` reads a value with at most `n`
brackets around anything in it.
-/

namespace StatQuery.Json.Reader

/-- The number of brackets that may be open at once. -/
def maxDepth : Nat := 127

/-- Whether another item follows in an array; the comma before it is taken, the closing bracket is
not. -/
def anotherItem (first : Bool) : Reader Bool := do
  match ← peekPastBlanks with
  | none => failNext .endOfList
  | some 0x5D => return false
  | some b =>
    if first then return true
    else if b = 0x2C then
      advance
      match ← peekPastBlanks with
      | none => failNext .endOfValue
      | some 0x5D => failNext .trailingComma
      | some _ => return true
    else failNext .expectedListCommaOrEnd

/-- The name of the next member of an object, up to its closing quote, if another one follows. -/
def nextName (first : Bool) : Reader (Option String) := do
  match ← peekPastBlanks with
  | none => failNext .endOfObject
  | some 0x7D => return none
  | some b =>
    if first then
      if b = 0x22 then
        advance
        return some (← stringBody)
      else failNext .keyNotString
    else if b = 0x2C then
      advance
      match ← peekPastBlanks with
      | none => failNext .endOfValue
      | some 0x22 =>
        advance
        return some (← stringBody)
      | some 0x7D => failNext .trailingComma
      | some _ => failNext .keyNotString
    else failNext .expectedObjectCommaOrEnd

/-- Takes the colon after a member's name. -/
def colon : Reader Unit := do
  match ← peekPastBlanks with
  | none => failNext .endOfObject
  | some 0x3A => advance
  | some _ => failNext .expectedColon

/-- At most `limit` items and the closing bracket. -/
def itemsUpTo {α : Type} (item : Reader α) : (limit : Nat) → (first : Bool) → Reader (List α)
  | 0, _ => failHere .endOfList
  | limit + 1, first => do
    if ← anotherItem first then
      let x ← item
      return x :: (← itemsUpTo item limit false)
    else
      advance
      return []

/-- The items of an array after its opening bracket. -/
def items {α : Type} (item : Reader α) : Reader (List α) := do
  itemsUpTo item ((← remaining) + 1) true

/-- Updates a state with each of at most `limit` members; the closing brace is not taken. -/
def foldMembersUpTo {σ : Type} (member : String → σ → Reader σ) :
    (limit : Nat) → (first : Bool) → σ → Reader σ
  | 0, _, _ => failHere .endOfObject
  | limit + 1, first, state => do
    match ← nextName first with
    | none => return state
    | some name => foldMembersUpTo member limit false (← member name state)

/-- Updates a state with each member of an object, after its opening brace and up to its closing
one, which is not taken. -/
def foldMembers {σ : Type} (member : String → σ → Reader σ) (start : σ) : Reader σ := do
  foldMembersUpTo member ((← remaining) + 1) true start

/-- The members of an object after its opening brace; of equal names the last one counts. -/
def members {α : Type} (value : Reader α) : Reader (Dict α) := do
  let dict ← foldMembers (fun name dict => do
    colon
    return dict.insert name (← value)) Dict.empty
  advance
  return dict

/-- A number as a value. -/
def numeral : Numeral → Json
  | .integer n => .integer n
  | .float x => .float x

/-- A value, in which arrays and objects have values read by `nested`, if they may stand at all. -/
def valueWith (nested : Option (Reader Json)) : Reader Json := do
  match ← peekValue with
  | 0x6E =>
    advance
    restOfNull
    return .null
  | 0x74 =>
    advance
    restOfTrue
    return .boolean true
  | 0x66 =>
    advance
    restOfFalse
    return .boolean false
  | 0x2D =>
    advance
    return numeral (← number true)
  | 0x22 =>
    advance
    return .string (← stringBody)
  | 0x5B =>
    match nested with
    | none => failNext .tooDeep
    | some value =>
      advance
      return .array (← items value)
  | 0x7B =>
    match nested with
    | none => failNext .tooDeep
    | some value =>
      advance
      return .ofDict (← members value)
  | b =>
    if isDigit b then return numeral (← number false)
    else failNext .expectedValue

/-- A value with at most `depth` brackets around anything in it. -/
def valueWithin : (depth : Nat) → Reader Json
  | 0 => valueWith none
  | depth + 1 => valueWith (some (valueWithin depth))

end StatQuery.Json.Reader

namespace StatQuery.Json

/-- The value that a text stands for. -/
def parse (text : List UInt8) : Except ReadError Json :=
  (Reader.valueWithin Reader.maxDepth).run text

end StatQuery.Json
