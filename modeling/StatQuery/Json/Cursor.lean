import StatQuery.Mismatch

/-!
# Reading bytes with a position

A `Cursor` is the rest of a JSON text and the line and column of the last byte taken. A `Reader`
takes bytes off the cursor and either yields a value or fails with a cause at a position. Most
failures stand at the last byte taken (`failHere`); one that blames the byte not yet taken stands
there (`failNext`).
-/

namespace StatQuery.Json

/-- A place in a text: lines count from 1, and columns count the bytes taken of the line. -/
structure Position where
  line : Nat
  column : Nat
  deriving DecidableEq, Repr, Inhabited

/-- The place before the first byte. -/
def Position.start : Position := ⟨1, 0⟩

/-- The place after one more byte. -/
def Position.after (p : Position) (b : UInt8) : Position :=
  if b = 10 then ⟨p.line + 1, 0⟩ else ⟨p.line, p.column + 1⟩

/-- The place after some more bytes. -/
def Position.afterAll (p : Position) (bytes : List UInt8) : Position := bytes.foldl Position.after p

@[simp] theorem Position.afterAll_nil (p : Position) : p.afterAll [] = p := rfl

@[simp] theorem Position.afterAll_cons (p : Position) (b : UInt8) (bytes : List UInt8) :
    p.afterAll (b :: bytes) = (p.after b).afterAll bytes := rfl

theorem Position.afterAll_append (p : Position) (xs ys : List UInt8) :
    p.afterAll (xs ++ ys) = (p.afterAll xs).afterAll ys := List.foldl_append

/-- Why a text cannot be read. -/
inductive Cause where
  | endOfValue
  | endOfObject
  | endOfList
  | endOfString
  | expectedColon
  | expectedObjectCommaOrEnd
  | expectedListCommaOrEnd
  | expectedWord
  | expectedValue
  | keyNotString
  | trailingComma
  | trailingCharacters
  | invalidNumber
  | numberOutOfRange
  | invalidEscape
  | controlCharacter
  | invalidCodePoint
  | unfinishedSurrogatePair
  | loneSurrogate
  | tooDeep
  | mismatch (m : Mismatch)
  deriving DecidableEq, Repr

def Cause.message : Cause → String
  | endOfValue => "EOF while parsing a value"
  | endOfObject => "EOF while parsing an object"
  | endOfList => "EOF while parsing a list"
  | endOfString => "EOF while parsing a string"
  | expectedColon => "expected `:`"
  | expectedObjectCommaOrEnd => "expected `,` or `\x7d`"
  | expectedListCommaOrEnd => "expected `,` or `]`"
  | expectedWord => "expected ident"
  | expectedValue => "expected value"
  | keyNotString => "key must be a string"
  | trailingComma => "trailing comma"
  | trailingCharacters => "trailing characters"
  | invalidNumber => "invalid number"
  | numberOutOfRange => "number out of range"
  | invalidEscape => "invalid escape"
  | controlCharacter => "control character (\\u0000-\\u001F) found while parsing a string"
  | invalidCodePoint => "invalid unicode code point"
  | unfinishedSurrogatePair => "unexpected end of hex escape"
  | loneSurrogate => "lone leading surrogate in hex escape"
  | tooDeep => "recursion limit exceeded"
  | mismatch m => m.message

/-- A cause and the place it is blamed on. -/
structure ReadError where
  cause : Cause
  position : Position
  deriving DecidableEq, Repr

def ReadError.message (e : ReadError) : String :=
  s!"{e.cause.message} at line {e.position.line} column {e.position.column}"

/-- The bytes not yet taken and the place of the last one taken. -/
structure Cursor where
  rest : List UInt8
  position : Position
  deriving DecidableEq, Repr

/-- The cursor before a text. -/
def Cursor.start (text : List UInt8) : Cursor := ⟨text, .start⟩

/-- Takes bytes off a cursor. -/
abbrev Reader (α : Type) := StateT Cursor (Except ReadError) α

namespace Reader

/-- The byte to be taken next. -/
def peek : Reader (Option UInt8) := do return (← get).rest.head?

/-- Takes a byte, if there is one. -/
def advance : Reader Unit := modify fun c =>
  match c.rest with
  | [] => c
  | b :: rest => ⟨rest, c.position.after b⟩

/-- Fails at the last byte taken. -/
def failHere {α : Type} (cause : Cause) : Reader α := do throw ⟨cause, (← get).position⟩

/-- Fails at the byte to be taken next. -/
def failNext {α : Type} (cause : Cause) : Reader α := do
  advance
  failHere cause

/-- Whether a byte is a space, a tab or a line break. -/
def isBlank (b : UInt8) : Bool := b = 32 || b = 10 || b = 9 || b = 13

/-- Whether a byte is a decimal digit. -/
def isDigit (b : UInt8) : Bool := 48 ≤ b && b ≤ 57

/-- Takes the bytes of a run. -/
def takeRun (inRun : UInt8 → Bool) : Reader (List UInt8) := fun c =>
  let run := c.rest.takeWhile inRun
  .ok (run, ⟨c.rest.dropWhile inRun, c.position.afterAll run⟩)

/-- Takes blanks. -/
def skipBlanks : Reader Unit := discard (takeRun isBlank)

/-- Takes blanks and shows the byte after them. -/
def peekPastBlanks : Reader (Option UInt8) := do
  skipBlanks
  peek

/-- The first byte of a value, which must be there. -/
def peekValue : Reader UInt8 := do
  match ← peekPastBlanks with
  | some b => return b
  | none => failNext .endOfValue

/-- Takes the rest of a literal word. -/
def word : List UInt8 → Reader Unit
  | [] => return
  | expected :: rest => do
    match ← peek with
    | none => failHere .endOfValue
    | some b =>
      advance
      if b = expected then word rest else failHere .expectedWord

/-- Takes `null` after its first letter. -/
def restOfNull : Reader Unit := word [0x75, 0x6C, 0x6C]

/-- Takes `true` after its first letter. -/
def restOfTrue : Reader Unit := word [0x72, 0x75, 0x65]

/-- Takes `false` after its first letter. -/
def restOfFalse : Reader Unit := word [0x61, 0x6C, 0x73, 0x65]

/-- The number of bytes left, which bounds every loop of a reader. -/
def remaining : Reader Nat := do return (← get).rest.length

/-- What a reader yields for a whole text, after which only blanks may stand. -/
def run {α : Type} (reader : Reader α) (text : List UInt8) : Except ReadError α :=
  (do
    let value ← reader
    match ← peekPastBlanks with
    | none => return value
    | some _ => failNext .trailingCharacters : Reader α).run' (Cursor.start text)

end Reader

end StatQuery.Json
