import StatQuery.Dict
import StatQuery.Mismatch
import StatQuery.Decimal.Power

/-!
# Reading records from trees

A `Datum` is a value as some format wrote it, free of the format's own kinds. Records are read from it
by their fields: from a map by name, unknown names being ignored, or from a sequence by position. A
field that is not given keeps its default. A `Fault` says what is wrong and under which names.
-/

namespace StatQuery

/-- A value as written. -/
inductive Datum where
  | null
  | boolean (b : Bool)
  | integer (n : Int)
  | float (text : String)
  | string (s : String)
  | sequence (items : List Datum)
  | map (members : List (String × Datum))
  deriving Inhabited, Repr

/-- A mismatch and the names that lead to it, the outermost first. -/
structure Fault where
  mismatch : Mismatch
  path : List String
  deriving DecidableEq, Repr

/-- The fault as seen from the outside of a member. -/
def Fault.under (name : String) (fault : Fault) : Fault := ⟨fault.mismatch, name :: fault.path⟩

namespace Datum

def found : Datum → Found
  | null => .null
  | boolean b => .boolean b
  | integer n => .integer n
  | float text => .float text
  | string s => .string s
  | sequence _ => .sequence
  | map _ => .map

/-- Reads a text. -/
def text : Datum → Except Mismatch String
  | string s => .ok s
  | datum => .error (.kind datum.found .string)

/-- Reads a truth value. -/
def flag : Datum → Except Mismatch Bool
  | boolean b => .ok b
  | datum => .error (.kind datum.found .boolean)

/-- Reads an unsigned integer of some width. -/
def unsigned (bits : Nat) : Datum → Except Mismatch Nat
  | integer n =>
    if 0 ≤ n ∧ n < twoTo bits then .ok n.toNat
    else .error (.range (.integer n) (.unsigned bits))
  | datum => .error (.kind datum.found (.unsigned bits))

/-- A field of a record whose draft has type `σ`. -/
structure Field (σ : Type) where
  name : String
  read : Datum → σ → Except Mismatch σ

/-- What a sequence with more items than fields is told. -/
inductive Surplus where
  /-- That it should have had fewer. -/
  | fewer
  /-- The number of items that were read. -/
  | exactly

/-- A kind of record: the defaults of its fields are those of the draft that reading starts from. -/
structure Record (σ : Type) where
  title : String
  fields : List (Field σ)
  surplus : Surplus

variable {σ : Type}

/-- Puts the path to a member on a mismatch. -/
def faultAt {α : Type} (path : List String) : Except Mismatch α → Except Fault α
  | .ok value => .ok value
  | .error mismatch => .error ⟨mismatch, path⟩

/-- Reads members by name, in their order. -/
def Record.readMembers (record : Record σ) : List (String × Datum) → σ → Except Fault σ
  | [], draft => .ok draft
  | (name, value) :: rest, draft =>
    match record.fields.find? (·.name = name) with
    | none => record.readMembers rest draft
    | some field =>
      match field.read value draft with
      | .error mismatch => .error ⟨mismatch, [name]⟩
      | .ok draft => record.readMembers rest draft

/-- Reads items into fields, in order, until either runs out; yields the number of items left. -/
def readItems : List (Field σ) → List Datum → σ → Except Mismatch (σ × Nat)
  | [], left, draft => .ok (draft, left.length)
  | _ :: _, [], draft => .ok (draft, 0)
  | field :: fields, item :: items, draft =>
    match field.read item draft with
    | .error mismatch => .error mismatch
    | .ok draft => readItems fields items draft

/-- What is wrong with a sequence of some length that has items left over. -/
def Record.surplusMismatch (record : Record σ) (given : Nat) : Mismatch :=
  match record.surplus with
  | .fewer => .length given .fewer
  | .exactly => .length given (.exactly record.fields.length)

/-- Reads a record over a draft. -/
def Record.read (record : Record σ) (draft : σ) : Datum → Except Fault σ
  | map members => record.readMembers members draft
  | sequence items =>
    match readItems record.fields items draft with
    | .error mismatch => .error ⟨mismatch, []⟩
    | .ok (draft, 0) => .ok draft
    | .ok (_, _ + 1) => .error ⟨record.surplusMismatch items.length, []⟩
  | datum => .error ⟨.kind datum.found (.record record.title), []⟩

end Datum

end StatQuery
