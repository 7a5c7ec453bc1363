import StatQuery.Config.Basic
import StatQuery.Datum

/-!
# Reading a configuration

A configuration is a map of four sections. The services are read first, in key order; then the other
sections in the order of their names. Names that are not known are ignored everywhere.
-/

namespace StatQuery

open Datum in
/-- The record that a service is written as. -/
def ServiceEntry.record : Record ServiceEntry where
  title := "ServiceEntry"
  fields := [
    ⟨"app_name", fun datum entry => do return { entry with appName := ← datum.text }⟩,
    ⟨"description", fun datum entry => do return { entry with description := ← datum.text }⟩,
    ⟨"instance", fun datum entry => do return { entry with instanceName := ← datum.text }⟩,
    ⟨"hosts_url", fun datum entry => do return { entry with hostsUrl := ← datum.text }⟩,
    ⟨"control_port", fun datum entry => do
      return { entry with controlPort := (← datum.unsigned 16).toUInt16 }⟩]
  surplus := .fewer

/-- Reads the description of a service. -/
def ServiceEntry.ofDatum (datum : Datum) : Except Fault ServiceEntry :=
  ServiceEntry.record.read .blank datum

namespace Config

open Datum in
/-- The record of the section on the query endpoint. -/
def bindRecord : Record Config where
  title := "BindConfig"
  fields := [
    ⟨"stats_endpoint", fun datum config => do return { config with statsEndpoint := ← datum.text }⟩]
  surplus := .exactly

open Datum in
/-- The record of the section on the log. -/
def telemetryRecord : Record Config where
  title := "TelemetryConfig"
  fields := [⟨"log_level", fun datum config => do return { config with logLevel := ← datum.text }⟩]
  surplus := .exactly

open Datum in
/-- The record of the section on answering. -/
def statisticsRecord : Record Config where
  title := "StatisticsConfig"
  fields := [
    ⟨"enabled", fun datum config => do return { config with enabled := ← datum.flag }⟩,
    ⟨"provider_timeout_ms", fun datum config => do
      return { config with providerTimeoutMs := (← datum.unsigned 64).toUInt64 }⟩]
  surplus := .exactly

/-- Reads services in key order. -/
def readEntries : List (String × Datum) → Except Fault (List (String × ServiceEntry))
  | [] => .ok []
  | (name, datum) :: rest =>
    match ServiceEntry.ofDatum datum with
    | .error fault => .error (fault.under name)
    | .ok entry => (readEntries rest).map ((name, entry) :: ·)

/-- Reads the section that describes the services. -/
def readServices : Datum → Except Fault (Dict ServiceEntry)
  | .map members => (readEntries members).map .ofList
  | datum => .error ⟨.kind datum.found .map, []⟩

/-- Reads a section over a configuration, if it is there. A fault is not told where it lies. -/
def readSection (record : Datum.Record Config) (name : String) (members : List (String × Datum))
    (config : Config) : Except Fault Config :=
  match Entries.get? name members with
  | none => .ok config
  | some datum =>
    match record.read config datum with
    | .ok config => .ok config
    | .error fault => .error ⟨fault.mismatch, []⟩

/-- Reads a configuration from its sections. -/
def ofSections (members : List (String × Datum)) : Except Fault Config := do
  let services ← match Entries.get? "services" members with
    | none => pure .empty
    | some datum =>
      match readServices datum with
      | .ok services => pure services
      | .error fault => throw (fault.under "services")
  let config := { default with services := services }
  let config ← readSection bindRecord "bind" members config
  let config ← readSection statisticsRecord "statistics" members config
  readSection telemetryRecord "telemetry" members config

/-- Reads a configuration. -/
def ofDatum : Datum → Except Fault Config
  | .map members => ofSections members
  | datum => .error ⟨.kind datum.found (.record "TallyConfig"), []⟩

end Config

mutual

/-- A JSON value as a datum. -/
def Json.datum : Json → Datum
  | .null => .null
  | .boolean b => .boolean b
  | .integer n => .integer n
  | .float x => .float (Decimal.Layout.compact.render x)
  | .string s => .string s
  | .array items => .sequence (Json.datumItems items)
  | .object members => .map (Json.datumMembers members)

/-- Items as data. -/
def Json.datumItems : List Json → List Datum
  | [] => []
  | item :: rest => item.datum :: Json.datumItems rest

/-- Members as data. -/
def Json.datumMembers : List (String × Json) → List (String × Datum)
  | [] => []
  | (name, value) :: rest => (name, value.datum) :: Json.datumMembers rest

end

/-- Reads the description of a service from a JSON value. -/
def ServiceEntry.ofJson (value : Json) : Except Fault ServiceEntry :=
  ServiceEntry.ofDatum value.datum

/-- Reads a configuration from a JSON value. -/
def Config.ofJson (value : Json) : Except Fault Config := Config.ofDatum value.datum

end StatQuery
