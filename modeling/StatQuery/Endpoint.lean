/-!
# Endpoints

An endpoint is a transport and an address, as in `tcp://*:3333`. The address `*` stands for every
interface, which a listener has to spell as `0.0.0.0`.
-/

namespace StatQuery.Endpoint

/-- What stands before and after the first `://`. -/
def splitScheme : List Char → Option (List Char × List Char)
  | [] => none
  | ':' :: '/' :: '/' :: address => some ([], address)
  | c :: rest => (splitScheme rest).map fun (scheme, address) => (c :: scheme, address)

/-- The characters of an endpoint with a wildcard host spelled out. -/
def listeningChars (endpoint : List Char) : List Char :=
  match splitScheme endpoint with
  | some (scheme, '*' :: ':' :: rest) =>
    scheme ++ "://0.0.0.0:".toList ++ rest
  | _ => endpoint

/-- The endpoint to listen on: a wildcard host with a colon after it is spelled out. -/
def listening (endpoint : String) : String := String.ofList (listeningChars endpoint.toList)

example : listening "tcp://*:3333" = "tcp://0.0.0.0:3333" := by decide +kernel
example : listening "tcp://*" = "tcp://*" := by decide +kernel

end StatQuery.Endpoint
