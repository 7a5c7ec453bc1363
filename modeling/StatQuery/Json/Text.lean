import StatQuery.Json.Cursor
import StatQuery.Text.Utf8

/-!
# Strings in JSON

The content of a string is collected as bytes, escapes replaced by the bytes they stand for, and must
be UTF-8 as a whole at the closing quote. A character past the basic plane is escaped as a surrogate
pair; half of a pair is an error.
-/

namespace StatQuery.Json.Reader

/-- The value of a hexadecimal digit. -/
def hexValue? (b : UInt8) : Option Nat :=
  if 48 ≤ b && b ≤ 57 then some (b.toNat - 48)
  else if 97 ≤ b && b ≤ 102 then some (b.toNat - 87)
  else if 65 ≤ b && b ≤ 70 then some (b.toNat - 55)
  else none

/-- The value of four hexadecimal digits. -/
def hexWord? (a b c d : UInt8) : Option Nat := do
  let a ← hexValue? a
  let b ← hexValue? b
  let c ← hexValue? c
  let d ← hexValue? d
  return ((a * 16 + b) * 16 + c) * 16 + d

/-- Takes bytes up to the end. -/
def skipAll : Reader Unit := discard (takeRun fun _ => true)

/-- Takes the four digits of an escaped code unit. -/
def hexUnit : Reader Nat := do
  match (← get).rest with
  | a :: b :: c :: d :: _ =>
    advance
    advance
    advance
    advance
    match hexWord? a b c d with
    | some unit => return unit
    | none => failHere .invalidEscape
  | _ =>
    skipAll
    failHere .endOfString

/-- The byte after a backslash that stands for itself or for a control character. -/
def plainEscape? (b : UInt8) : Option UInt8 :=
  match b with
  | 0x22 => some 0x22
  | 0x5C => some 0x5C
  | 0x2F => some 0x2F
  | 0x62 => some 8
  | 0x66 => some 12
  | 0x6E => some 10
  | 0x72 => some 13
  | 0x74 => some 9
  | _ => none

/-- Takes the byte that must come between the halves of a surrogate pair. -/
def pairByte (expected : UInt8) : Reader Unit := do
  match ← peek with
  | none => failHere .endOfString
  | some b =>
    advance
    if b = expected then return else failHere .unfinishedSurrogatePair

/-- The bytes of an escaped code point, after `\u`. -/
def unicodeEscape : Reader (List UInt8) := do
  let unit ← hexUnit
  if 0xDC00 ≤ unit && unit ≤ 0xDFFF then failHere .loneSurrogate
  else if unit < 0xD800 || 0xDBFF < unit then return Utf8.encodeChar (Char.ofNat unit)
  else
    pairByte 0x5C
    pairByte 0x75
    let low ← hexUnit
    if 0xDC00 ≤ low && low ≤ 0xDFFF then
      return Utf8.encodeChar (Char.ofNat ((unit - 0xD800) * 0x400 + (low - 0xDC00) + 0x10000))
    else failHere .loneSurrogate

/-- The bytes that an escape stands for, after the backslash. -/
def escape : Reader (List UInt8) := do
  match ← peek with
  | none => failHere .endOfString
  | some b =>
    advance
    if b = 0x75 then unicodeEscape
    else
      match plainEscape? b with
      | some content => return [content]
      | none => failHere .invalidEscape

/-- The bytes up to the closing quote, which is taken; `limit` bounds the number of characters. -/
def contentUpTo : (limit : Nat) → Reader (List UInt8)
  | 0 => failHere .endOfString
  | limit + 1 => do
    match ← peek with
    | none => failHere .endOfString
    | some b =>
      advance
      if b = 0x22 then return []
      else if b = 0x5C then
        let bytes ← escape
        return bytes ++ (← contentUpTo limit)
      else if b < 0x20 then failHere .controlCharacter
      else return b :: (← contentUpTo limit)

/-- The text of some bytes. Bytes that are no text are blamed on the column that lies before the
closing quote by as many bytes as are left from the first bad one. -/
def decoded (bytes : List UInt8) : Reader String := do
  match Utf8.decodeInitial bytes with
  | (cs, []) => return String.ofList cs
  | (_, left) =>
    let position := (← get).position
    throw ⟨.invalidCodePoint, ⟨position.line, position.column - left.length⟩⟩

/-- The string after its opening quote. -/
def stringBody : Reader String := do
  decoded (← contentUpTo ((← remaining) + 1))

end StatQuery.Json.Reader
