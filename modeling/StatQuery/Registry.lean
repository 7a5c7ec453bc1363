import StatQuery.Provider.Basic

/-!
# The registry of providers

Providers are registered under handles. A handle holds one provider at a time, and handles are matched
exactly. A registry is a value, so whoever keeps one keeps it as it was.
-/

namespace StatQuery

/-- Why the registry refuses. -/
inductive RegistryError where
  | duplicateHandle (handle : String)
  | unknownHandle (handle : String)
  deriving DecidableEq, Repr

namespace RegistryError

def code : RegistryError → String
  | duplicateHandle _ => "DuplicateHandle"
  | unknownHandle _ => "UnknownHandle"

def message : RegistryError → String
  | duplicateHandle handle => s!"handle '{handle}' is already registered"
  | unknownHandle handle => s!"unknown handle '{handle}'"

end RegistryError

/-- The providers by handle. -/
abbrev Registry := Dict Provider

namespace Registry

/-- The registry with one more provider. -/
def register (registry : Registry) (handle : String) (provider : Provider) :
    Except RegistryError Registry :=
  if registry.contains handle then .error (.duplicateHandle handle)
  else .ok (registry.insert handle provider)

/-- The provider under a handle. -/
def lookup (registry : Registry) (handle : String) : Except RegistryError Provider :=
  match registry.get? handle with
  | none => .error (.unknownHandle handle)
  | some provider => .ok provider

/-- The provider under a handle, and the registry without it. -/
def unregister (registry : Registry) (handle : String) : Except RegistryError (Provider × Registry) :=
  match registry.get? handle with
  | none => .error (.unknownHandle handle)
  | some provider => .ok (provider, registry.erase handle)

end Registry

end StatQuery
