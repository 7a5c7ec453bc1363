import StatQuery.Json.Reader
import StatQuery.Json.Skip

/-!
# Reading records

A record is written as an object, whose unknown members are skipped, or as an array of its fields in
order, whose tail may be missing. While it is read, a draft collects the fields met so far: a field
met twice is an error, and so is a required one that is never met.
-/

namespace StatQuery.Json

namespace Reader

/-- Fails for a value of the wrong kind. A scalar is taken first; a bracket is not. -/
def wrongKind {α : Type} (expected : Expected) : Reader α := do
  let fault (found : Found) : Reader α := failHere (.mismatch (.kind found expected))
  match ← peek with
  | some 0x6E =>
    advance
    restOfNull
    fault .null
  | some 0x74 =>
    advance
    restOfTrue
    fault (.boolean true)
  | some 0x66 =>
    advance
    restOfFalse
    fault (.boolean false)
  | some 0x2D =>
    advance
    fault (← number true).found
  | some 0x22 =>
    advance
    fault (.string (← stringBody))
  | some 0x5B => fault .sequence
  | some 0x7B => fault .map
  | some b =>
    if isDigit b then fault (← number false).found else failNext .expectedValue
  | none => failNext .expectedValue

/-- A value that may be `null`. -/
def optional {α : Type} (value : Reader α) : Reader (Option α) := do
  match ← peekPastBlanks with
  | some 0x6E =>
    advance
    restOfNull
    return none
  | _ => return some (← value)

/-- An unsigned 64-bit integer out of a number. -/
def unsignedOf : Numeral → Reader UInt64
  | .integer (.ofNat n) => return n.toUInt64
  | .integer n => failHere (.mismatch (.range (.integer n) (.unsigned 64)))
  | numeral => failHere (.mismatch (.kind numeral.found (.unsigned 64)))

/-- An unsigned 64-bit integer. -/
def unsigned : Reader UInt64 := do
  match ← peekValue with
  | 0x2D =>
    advance
    unsignedOf (← number true)
  | b =>
    if isDigit b then unsignedOf (← number false)
    else wrongKind (.unsigned 64)

/-- A string. -/
def text : Reader String := do
  match ← peekValue with
  | 0x22 =>
    advance
    stringBody
  | _ => wrongKind .string

/-- A boolean. -/
def flag : Reader Bool := do
  match ← peekValue with
  | 0x74 =>
    advance
    restOfTrue
    return true
  | 0x66 =>
    advance
    restOfFalse
    return false
  | _ => wrongKind .boolean

/-- A map of values. -/
def dict {α : Type} (value : Reader α) : Reader (Dict α) := do
  match ← peekValue with
  | 0x7B =>
    advance
    members value
  | _ => wrongKind .map

end Reader

/-- A field of a record whose draft has type `σ`. -/
structure Field (σ : Type) where
  name : String
  /-- Reads the field's value into the draft. -/
  read : σ → Reader σ
  /-- Whether the draft has the field. -/
  isPresent : σ → Bool
  required : Bool

/-- How a record of type `α` is read: its fields in order, and what a finished draft stands for. -/
structure Record (σ α : Type) where
  title : String
  fields : List (Field σ)
  draft : σ
  build : σ → α

namespace Record

variable {σ α : Type}

/-- Fails between two members, at the place where the object could have closed. -/
def failAtClose {β : Type} (cause : Cause) : Reader β := do
  match ← Reader.peekPastBlanks with
  | some 0x7D => Reader.failNext cause
  | _ => Reader.failHere cause

/-- Reads a member into the draft. -/
def readMember (record : Record σ α) (name : String) (draft : σ) : Reader σ := do
  match record.fields.find? (·.name = name) with
  | none =>
    Reader.colon
    Reader.skipValue
    return draft
  | some field =>
    if field.isPresent draft then failAtClose (.mismatch (.duplicate name))
    else
      Reader.colon
      field.read draft

/-- Reads the members of an object after its opening brace. -/
def readObject (record : Record σ α) : Reader α := do
  let draft ← Reader.foldMembers record.readMember record.draft
  Reader.advance
  match record.fields.find? fun field => field.required && !field.isPresent draft with
  | some field => Reader.failHere (.mismatch (.missing field.name))
  | none => return record.build draft

/-- Reads array items into the fields, in order, until either runs out; yields the fields left. -/
def readItems : List (Field σ) → (first : Bool) → σ → Reader (σ × List (Field σ))
  | [], _, draft => return (draft, [])
  | field :: fields, first, draft => do
    if ← Reader.anotherItem first then
      readItems fields false (← field.read draft)
    else return (draft, field :: fields)

/-- Takes the closing bracket of an array all of whose items have been read. -/
def closeItems : Reader Unit := do
  match ← Reader.peekPastBlanks with
  | none => Reader.failNext .endOfList
  | some 0x5D => Reader.advance
  | some 0x2C =>
    Reader.advance
    match ← Reader.peekPastBlanks with
    | some 0x5D => Reader.failNext .trailingComma
    | _ => Reader.failNext .trailingCharacters
  | some _ => Reader.failNext .trailingCharacters

/-- Reads the items of an array after its opening bracket. -/
def readArray (record : Record σ α) : Reader α := do
  let (draft, left) ← readItems record.fields true record.draft
  closeItems
  match left.findIdx? (·.required) with
  | some i =>
    let given := record.fields.length - left.length + i
    Reader.failHere (.mismatch (.length given (.fields record.title record.fields.length)))
  | none => return record.build draft

/-- Reads a record. -/
def read (record : Record σ α) : Reader α := do
  match ← Reader.peekValue with
  | 0x5B =>
    Reader.advance
    record.readArray
  | 0x7B =>
    Reader.advance
    record.readObject
  | _ => Reader.wrongKind (.record record.title)

end Record

end StatQuery.Json
