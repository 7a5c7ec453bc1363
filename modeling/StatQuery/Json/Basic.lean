import StatQuery.Dict
import StatQuery.Decimal.Layout
import StatQuery.Mismatch
import StatQuery.Decimal.Power

/-!
# JSON values

The value trees of the statistics protocol. Integers and numbers with a fraction are kept apart,
since one is written without a point and the other with one. `Json.Canonical` says that a tree is in
the form that reading yields: the members of every object strictly ascend by name, and every integer
fits 64 bits.
-/

namespace StatQuery

/-- A JSON value; an object is the list of its members. -/
inductive Json where
  | null
  | boolean (b : Bool)
  | integer (n : Int)
  | float (x : Float)
  | string (s : String)
  | array (items : List Json)
  | object (members : List (String × Json))
  deriving Inhabited, Repr

namespace Json

mutual

/-- Equality of values is decidable. -/
def decEq : (a b : Json) → Decidable (a = b)
  | null, null => isTrue rfl
  | boolean a, boolean b => decidable_of_iff (a = b) (by simp)
  | integer a, integer b => decidable_of_iff (a = b) (by simp)
  | float a, float b => decidable_of_iff (a = b) (by simp)
  | string a, string b => decidable_of_iff (a = b) (by simp)
  | array xs, array ys =>
    match decEqItems xs ys with
    | isTrue h => isTrue (by rw [h])
    | isFalse h => isFalse fun heq => h (Json.array.inj heq)
  | object xs, object ys =>
    match decEqMembers xs ys with
    | isTrue h => isTrue (by rw [h])
    | isFalse h => isFalse fun heq => h (Json.object.inj heq)
  | null, boolean _ | null, integer _ | null, float _ | null, string _ | null, array _
  | null, object _ | boolean _, null | boolean _, integer _ | boolean _, float _
  | boolean _, string _ | boolean _, array _ | boolean _, object _ | integer _, null
  | integer _, boolean _ | integer _, float _ | integer _, string _ | integer _, array _
  | integer _, object _ | float _, null | float _, boolean _ | float _, integer _
  | float _, string _ | float _, array _ | float _, object _ | string _, null
  | string _, boolean _ | string _, integer _ | string _, float _ | string _, array _
  | string _, object _ | array _, null | array _, boolean _ | array _, integer _
  | array _, float _ | array _, string _ | array _, object _ | object _, null
  | object _, boolean _ | object _, integer _ | object _, float _ | object _, string _
  | object _, array _ => isFalse fun h => by cases h

/-- Equality of array items. -/
def decEqItems : (xs ys : List Json) → Decidable (xs = ys)
  | [], [] => isTrue rfl
  | [], _ :: _ => isFalse fun h => by cases h
  | _ :: _, [] => isFalse fun h => by cases h
  | x :: xs, y :: ys =>
    match decEq x y, decEqItems xs ys with
    | isTrue hx, isTrue hxs => isTrue (by rw [hx, hxs])
    | isFalse hx, _ => isFalse fun h => hx (List.cons.inj h).1
    | _, isFalse hxs => isFalse fun h => hxs (List.cons.inj h).2

/-- Equality of object members. -/
def decEqMembers : (xs ys : List (String × Json)) → Decidable (xs = ys)
  | [], [] => isTrue rfl
  | [], _ :: _ => isFalse fun h => by cases h
  | _ :: _, [] => isFalse fun h => by cases h
  | (k, x) :: xs, (l, y) :: ys =>
    match decEq x y, decEqMembers xs ys with
    | isTrue hx, isTrue hxs =>
      if hk : k = l then isTrue (by rw [hk, hx, hxs])
      else isFalse fun h => hk (Prod.mk.inj (List.cons.inj h).1).1
    | isFalse hx, _ => isFalse fun h => hx (Prod.mk.inj (List.cons.inj h).1).2
    | _, isFalse hxs => isFalse fun h => hxs (List.cons.inj h).2

end

instance : DecidableEq Json := decEq

/-- A natural number. -/
def natural (n : Nat) : Json := integer n

/-- The object of a map. -/
def ofDict (dict : Dict Json) : Json := object dict.entries

/-- The object with the given members, in key order. -/
def ofMembers (members : List (String × Json)) : Json := object (Entries.ofList members)

/-- A value, or `null` if there is none. -/
def ofOption : Option Json → Json
  | none => null
  | some value => value

/-- The member of an object with the given name. -/
def member? (name : String) : Json → Option Json
  | object members => Entries.get? name members
  | _ => none

mutual

/-- The members of every object strictly ascend by name, and every integer fits 64 bits. -/
def Canonical : Json → Prop
  | integer n => -(twoTo 63 : Int) ≤ n ∧ n < twoTo 64
  | array items => CanonicalItems items
  | object members => Entries.Ascending members ∧ CanonicalMembers members
  | _ => True

/-- Every item is canonical. -/
def CanonicalItems : List Json → Prop
  | [] => True
  | item :: rest => item.Canonical ∧ CanonicalItems rest

/-- Every member's value is canonical. -/
def CanonicalMembers : List (String × Json) → Prop
  | [] => True
  | (_, value) :: rest => value.Canonical ∧ CanonicalMembers rest

end

mutual

/-- The number of brackets around the innermost value. -/
def depth : Json → Nat
  | array items => depthItems items + 1
  | object members => depthMembers members + 1
  | _ => 0

/-- The greatest depth of some items. -/
def depthItems : List Json → Nat
  | [] => 0
  | item :: rest => max item.depth (depthItems rest)

/-- The greatest depth of some members' values. -/
def depthMembers : List (String × Json) → Nat
  | [] => 0
  | (_, value) :: rest => max value.depth (depthMembers rest)

end

/-- What a message calls a value. -/
def found : Json → Found
  | null => .null
  | boolean b => .boolean b
  | integer n => .integer n
  | float x => .float (Decimal.Layout.compact.render x)
  | string s => .string s
  | array _ => .sequence
  | object _ => .map

end Json

end StatQuery
