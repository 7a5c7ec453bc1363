import StatQuery.Protocol.Error
import StatQuery.Json.Record
import StatQuery.Json.Writer

/-!
# Replies

A reply says whether the request succeeded. A success carries data, and notes on the providers that
failed during an aggregate; a failure carries a code and a detail. On the wire the fields stand in one
order and absent ones are left out.
-/

namespace StatQuery

/-- The reply to one request. -/
structure Response where
  ok : Bool
  data : Option (Dict Json)
  /-- Notes on the providers left out of the data, by handle. -/
  errors : Option (Dict String)
  error : Option String
  detail : Option String
  deriving DecidableEq, Inhabited

namespace Response

/-- A success. -/
def success (data : Dict Json) : Response := ⟨true, some data, none, none, none⟩

/-- A success with notes, which are left out if there are none. -/
def partialSuccess (data : Dict Json) (errors : Dict String) : Response :=
  { success data with errors := if errors.isEmpty then none else some errors }

/-- A failure. -/
def failure (code detail : String) : Response := ⟨false, none, none, some code, some detail⟩

/-- The fields of a reply met so far. -/
structure Draft where
  ok : Option Bool
  data : Option (Option (Dict Json))
  errors : Option (Option (Dict String))
  error : Option (Option String)
  detail : Option (Option String)

open Json in
/-- The record that a reply is written as. -/
def record : Record Draft Response where
  title := "Response"
  fields := [
    { name := "ok"
      read := fun draft => do return { draft with ok := some (← Reader.flag) }
      isPresent := fun draft => draft.ok.isSome
      required := true },
    { name := "data"
      read := fun draft => do
        let value := Reader.valueWithin (Reader.maxDepth - 2)
        return { draft with data := some (← Reader.optional (Reader.dict value)) }
      isPresent := fun draft => draft.data.isSome
      required := false },
    { name := "errors"
      read := fun draft => do
        return { draft with errors := some (← Reader.optional (Reader.dict Reader.text)) }
      isPresent := fun draft => draft.errors.isSome
      required := false },
    { name := "error"
      read := fun draft => do return { draft with error := some (← Reader.optional Reader.text) }
      isPresent := fun draft => draft.error.isSome
      required := false },
    { name := "detail"
      read := fun draft => do return { draft with detail := some (← Reader.optional Reader.text) }
      isPresent := fun draft => draft.detail.isSome
      required := false }]
  draft := ⟨none, none, none, none, none⟩
  build := fun draft =>
    ⟨draft.ok.getD false, draft.data.join, draft.errors.join, draft.error.join, draft.detail.join⟩

/-- Reads a reply frame. -/
def decode (frame : List UInt8) : Except ProtocolError Response :=
  match record.read.run frame with
  | .error e => .error (.malformedResponse e.message)
  | .ok response => .ok response

/-- A member that is left out if it is absent. -/
def optionalMember (name : String) : Option Json → List (String × Json)
  | none => []
  | some value => [(name, value)]

/-- The members of a reply as written. -/
def members (r : Response) : List (String × Json) :=
  ("ok", .boolean r.ok) ::
    (optionalMember "data" (r.data.map .ofDict) ++
      optionalMember "errors" (r.errors.map fun errors => .ofDict (errors.map .string)) ++
      optionalMember "error" (r.error.map .string) ++
      optionalMember "detail" (r.detail.map .string))

/-- The reply as a value, its members in the order of the record. -/
def toJson (r : Response) : Json := .object r.members

/-- The text of a reply on one line. -/
def text (r : Response) : String := r.toJson.compact

/-- The text of a reply with a line for each member. -/
def prettyText (r : Response) : String := r.toJson.pretty

/-- Writes a reply frame. -/
def encode (r : Response) : List UInt8 := Utf8.encode r.text

/-- A value with the up-time that it reports set to `seconds`. -/
def setUptime (seconds : Nat) : Json → Json
  | .object members => .object (members.map fun (name, value) =>
      (name, if name = "uptime_secs" then .natural seconds else value))
  | value => value

/-- The reply as it would be at an up-time of zero: no other part of it depends on the clock. -/
def atStart (r : Response) : Response :=
  { r with data := r.data.map fun data => data.map (setUptime 0) }

end Response

end StatQuery
