import StatQuery.Duration

/-!
# Provider errors

Why a provider has no answer: it says so itself, it takes longer than it may, or it crashes.
-/

namespace StatQuery

/-- The end of a computation that neither answers nor fails. -/
inductive Crash where
  | message (text : String)
  /-- The crash left nothing that could be shown. -/
  | unexplained
  deriving DecidableEq, Repr, Inhabited

def Crash.text : Crash → String
  | message text => text
  | unexplained => "unknown panic"

/-- Why a provider has no answer. -/
inductive ProviderError where
  | failed (reason : String)
  | timedOut (limit : Duration)
  | crashed (text : String)
  deriving DecidableEq, Repr

def ProviderError.message : ProviderError → String
  | failed reason => reason
  | timedOut limit => s!"timed out after {limit.text}"
  | crashed text => s!"panicked: {text}"

end StatQuery
