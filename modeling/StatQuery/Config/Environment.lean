import StatQuery.Config.Basic
import StatQuery.Decimal.Power

/-!
# Configuration from the environment

Each of five variables replaces one value of a configuration. A variable whose value cannot be used is
passed over. Both of the last two set the level of the log, and the later one wins.
-/

namespace StatQuery.Config

/-- The variables that are set, and their values. -/
abbrev Environment := Dict String

/-- The truth value that a word stands for, in any case. -/
def truth? (word : String) : Option Bool :=
  let word := word.map Char.toLower
  if word ∈ ["1", "true", "yes", "on"] then some true
  else if word ∈ ["0", "false", "no", "off"] then some false
  else none

/-- The characters after a plus sign, if there is one. -/
def afterPlus : List Char → List Char
  | '+' :: rest => rest
  | cs => cs

/-- The natural number below `2 ^ 64` that a word stands for; a plus sign may precede it. -/
def number? (word : String) : Option UInt64 :=
  let digits := afterPlus word.toList
  let n : Nat := digits.foldl (fun n c => n * 10 + (c.toNat - 48)) 0
  if digits ≠ [] ∧ digits.all Char.isDigit ∧ n < twoTo 64 then some n.toUInt64 else none

/-- A variable and what its value does to a configuration, if it is of any use. -/
structure Override where
  name : String
  apply : String → Config → Option Config

/-- The variables that replace values, in the order in which they do. -/
def overrides : List Override := [
  ⟨"TALLY_STATS_ENDPOINT", fun value config => some { config with statsEndpoint := value }⟩,
  ⟨"TALLY_STATS_ENABLED", fun value config =>
    (truth? value).map fun enabled => { config with enabled := enabled }⟩,
  ⟨"TALLY_PROVIDER_TIMEOUT_MS", fun value config =>
    (number? value).map fun ms => { config with providerTimeoutMs := ms }⟩,
  ⟨"TALLY_LOG_LEVEL", fun value config => some { config with logLevel := value }⟩,
  ⟨"RUST_LOG", fun value config => some { config with logLevel := value }⟩]

/-- The configuration after some variables, and the names of those that had an effect. -/
def applyOverrides (environment : Environment) : List Override → Config → Config × List String
  | [], config => (config, [])
  | override :: rest, config =>
    match (environment.get? override.name).bind fun value => override.apply value config with
    | none => applyOverrides environment rest config
    | some config =>
      let (config, names) := applyOverrides environment rest config
      (config, override.name :: names)

/-- The configuration with the values that the environment replaces, and the variables that did. -/
def withEnvironment (environment : Environment) (config : Config) : Config × List String :=
  applyOverrides environment overrides config

end StatQuery.Config
