import StatQuery.Json.Text
import StatQuery.Json.Number

/-!
# Skipping values

The value of a member that nobody asks for is taken without being built: brackets may nest to any
depth, numbers may be of any size, and strings need be neither UTF-8 nor paired surrogates.
-/

namespace StatQuery.Json.Reader

/-- Takes the rest of an escape, after the backslash. -/
def skipEscape : Reader Unit := do
  match ← peek with
  | none => failHere .endOfString
  | some b =>
    advance
    if b = 0x75 then discard hexUnit
    else if (plainEscape? b).isSome then return
    else failHere .invalidEscape

/-- Takes the rest of a string, after the opening quote; `limit` bounds the number of characters. -/
def skipStringUpTo : (limit : Nat) → Reader Unit
  | 0 => failHere .endOfString
  | limit + 1 => do
    match ← peek with
    | none => failHere .endOfString
    | some b =>
      if b = 0x22 then advance
      else if b = 0x5C then
        advance
        skipEscape
        skipStringUpTo limit
      else if b < 0x20 then failHere .controlCharacter
      else
        advance
        skipStringUpTo limit

/-- Takes the rest of a string, after the opening quote. -/
def skipString : Reader Unit := do skipStringUpTo ((← remaining) + 1)

/-- Takes an exponent. -/
def skipExponent : Reader Unit := do
  advance
  match ← peek with
  | some 0x2B | some 0x2D => advance
  | _ => pure ()
  let written ← digits
  if written.isEmpty then
    failNext .invalidNumber

/-- Takes a fraction and an exponent, if they are there. -/
def skipAfterWhole : Reader Unit := do
  match ← peek with
  | some 0x2E =>
    advance
    let written ← digits
    if written.isEmpty then failNext .invalidNumber
    else
      match ← peek with
      | some 0x65 | some 0x45 => skipExponent
      | _ => return
  | some 0x65 | some 0x45 => skipExponent
  | _ => return

/-- Takes a number after its sign, if any. -/
def skipNumber : Reader Unit := do
  match ← peek with
  | some 0x30 =>
    advance
    match ← peek with
    | some b => if isDigit b then failNext .invalidNumber else skipAfterWhole
    | none => return
  | some b =>
    if isDigit b then
      discard digits
      skipAfterWhole
    else failNext .invalidNumber
  | none => failNext .invalidNumber

mutual

/-- Takes a value of any depth. -/
def skipValueUpTo : (limit : Nat) → Reader Unit
  | 0 => failHere .endOfValue
  | limit + 1 => do
    match ← peekValue with
    | 0x6E =>
      advance
      restOfNull
    | 0x74 =>
      advance
      restOfTrue
    | 0x66 =>
      advance
      restOfFalse
    | 0x2D =>
      advance
      skipNumber
    | 0x22 =>
      advance
      skipString
    | 0x5B =>
      advance
      skipItemsUpTo limit true
    | 0x7B =>
      advance
      skipMembersUpTo limit true
    | b => if isDigit b then skipNumber else failNext .expectedValue

/-- Takes the items of an array and its closing bracket. -/
def skipItemsUpTo : (limit : Nat) → (first : Bool) → Reader Unit
  | 0, _ => failHere .endOfList
  | limit + 1, first => do
    match ← peekPastBlanks with
    | none => failNext .endOfList
    | some 0x5D => advance
    | some b =>
      if first then
        skipValueUpTo limit
        skipItemsUpTo limit false
      else if b = 0x2C then
        advance
        skipValueUpTo limit
        skipItemsUpTo limit false
      else failNext .expectedListCommaOrEnd

/-- Takes the members of an object and its closing brace. -/
def skipMembersUpTo : (limit : Nat) → (first : Bool) → Reader Unit
  | 0, _ => failHere .endOfObject
  | limit + 1, first => do
    match ← peekPastBlanks with
    | none => failNext .endOfObject
    | some 0x7D => advance
    | some b =>
      if first then skipMemberUpTo limit
      else if b = 0x2C then
        advance
        skipMemberUpTo limit
      else failNext .expectedObjectCommaOrEnd

/-- Takes a member and the members after it. -/
def skipMemberUpTo : (limit : Nat) → Reader Unit
  | 0 => failHere .endOfObject
  | limit + 1 => do
    match ← peekPastBlanks with
    | none => failNext .endOfObject
    | some 0x22 =>
      advance
      skipString
      match ← peekPastBlanks with
      | none => failNext .endOfObject
      | some 0x3A =>
        advance
        skipValueUpTo limit
        skipMembersUpTo limit false
      | some _ => failNext .expectedColon
    | some _ => failNext .keyNotString

end

/-- Takes a value of any depth. Every step but three in a row takes a byte, which bounds them. -/
def skipValue : Reader Unit := do skipValueUpTo (4 * ((← remaining) + 1))

end StatQuery.Json.Reader
