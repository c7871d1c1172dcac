import RadioAdmin.Settings.Definition

/-!
# Settings of the engine

Every setting has a default, so that an empty document is a valid one. Loading a document
and checking the connections in it fail in different ways.
-/
namespace RadioAdmin

/-- What is wrong with a defined connection. -/
inductive DefinitionFault where
  | missingId
  | duplicateId
  | badName (error : NameError)
  deriving DecidableEq, Repr

def DefinitionFault.message : DefinitionFault → String
  | .missingId => "missing id"
  | .duplicateId => "duplicate id"
  | .badName error => error.message

inductive SettingsError where
  | unreadableFile
  | invalidToml
  | invalidYaml
  | invalidConnection (id : String) (fault : DefinitionFault)
  deriving DecidableEq, Repr

namespace SettingsError

/-- Whether the error comes from a file or from its grammar. -/
def isLoadError : SettingsError → Bool
  | .invalidConnection _ _ => false
  | _ => true

/-- The text of an error about a connection. -/
def connectionMessage (id : String) (fault : DefinitionFault) : String :=
  "invalid connection '" ++ id ++ "': " ++ fault.message

end SettingsError

structure Settings where
  logFilter : String
  logJson : Bool
  /-- Age in seconds from which maintenance removes ended transactions. -/
  transactionMaxAge : UInt64
  connections : List ConnectionDefinition
  deriving DecidableEq, Repr

namespace Settings

def defaultLogFilter : String := "info"

def defaultMaxAge : UInt64 := 3600

def default : Settings where
  logFilter := defaultLogFilter
  logJson := false
  transactionMaxAge := defaultMaxAge
  connections := []

/-- What is wrong with a definition after others with given identifiers. -/
def faultAfter (seen : List String) (definition : ConnectionDefinition) : Option DefinitionFault :=
  if definition.id.isEmpty then some .missingId
  else if seen.contains definition.id then some .duplicateId
  else match definition.transport with
    | .error error => some (.badName error)
    | .ok _ => match Role.parse definition.roleName with
      | .error error => some (.badName error)
      | .ok _ => none

/-- Check definitions that come after others with given identifiers. -/
def validateAfter (seen : List String) : List ConnectionDefinition → Except SettingsError Unit
  | [] => .ok ()
  | definition :: rest => match faultAfter seen definition with
    | some fault => .error (.invalidConnection definition.id fault)
    | none => validateAfter (definition.id :: seen) rest

/-- Check all connections strictly and report the first one at fault. -/
def validate (settings : Settings) : Except SettingsError Unit :=
  validateAfter [] settings.connections

def fieldNames : List String :=
  ["log_filter", "log_json", "transaction_max_age_secs", "connections"]

/-- Settings out of a document. -/
def read {τ : Type} (form : Form τ) (document : τ) : Option Settings := do
  let record ← form.record fieldNames document
  let age (content : τ) : Option UInt64 := (form.below UInt64.size content).map UInt64.ofNat
  let definitions (content : τ) : Option (List ConnectionDefinition) :=
    (form.list content).bind fun items => items.mapM (ConnectionDefinition.read form)
  return {
    logFilter := ← record.withDefault "log_filter" defaultLogFilter form.text
    logJson := ← record.withDefault "log_json" false form.flag
    transactionMaxAge := ← record.withDefault "transaction_max_age_secs" defaultMaxAge age
    connections := ← record.withDefault "connections" [] definitions }

def toJson (settings : Settings) : Json :=
  .object [("log_filter", .text settings.logFilter),
    ("log_json", .bool settings.logJson),
    ("transaction_max_age_secs", .integer settings.transactionMaxAge.toNat),
    ("connections", .array (settings.connections.map ConnectionDefinition.toJson))]

end Settings

end RadioAdmin
