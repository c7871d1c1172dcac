import RadioAdmin.Connection.Status
import RadioAdmin.Record

/-!
# Definitions of connections

One connection to register at startup, as a settings file describes it. Transport and
role stay texts, so that one bad entry does not spoil the whole file.
-/
namespace RadioAdmin

structure ConnectionDefinition where
  id : String
  transportName : String
  roleName : String
  autoConnect : Bool
  description : String
  host : Option String
  tcpPort : Option UInt16
  serialPort : Option String
  deriving DecidableEq, Repr

namespace ConnectionDefinition

/-- The role of a definition that names none. -/
def defaultRoleName : String := Role.client.name

/-- What a definition says that leaves everything out. -/
def empty : ConnectionDefinition where
  id := ""
  transportName := ""
  roleName := defaultRoleName
  autoConnect := true
  description := ""
  host := none
  tcpPort := none
  serialPort := none

/-- A client that connects by itself. -/
def new (id : String) (transport : Transport) : ConnectionDefinition :=
  { empty with id := id, transportName := transport.name }

def withRole (definition : ConnectionDefinition) (role : Role) : ConnectionDefinition :=
  { definition with roleName := role.name }

def withEndpoint (definition : ConnectionDefinition) (host : String) (tcpPort : UInt16) :
    ConnectionDefinition :=
  { definition with host := some host, tcpPort := some tcpPort }

def withSerialPort (definition : ConnectionDefinition) (path : String) : ConnectionDefinition :=
  { definition with serialPort := some path }

def withAutoConnect (definition : ConnectionDefinition) (autoConnect : Bool) :
    ConnectionDefinition :=
  { definition with autoConnect := autoConnect }

def withDescription (definition : ConnectionDefinition) (description : String) :
    ConnectionDefinition :=
  { definition with description := description }

def transport (definition : ConnectionDefinition) : Except NameError Transport :=
  Transport.parse definition.transportName

/-- The role that is named, or client when none is. -/
def role (definition : ConnectionDefinition) : Role :=
  match Role.parse definition.roleName with
  | .ok role => role
  | .error _ => .client

def fieldNames : List String :=
  ["id", "type", "role", "auto_connect", "description", "host", "port", "serial_port"]

/-- A definition out of a document; every field may be missing. -/
def read {τ : Type} (form : Form τ) (document : τ) : Option ConnectionDefinition := do
  let record ← form.record fieldNames document
  let tcpPort (content : τ) : Option UInt16 := (form.below UInt16.size content).map UInt16.ofNat
  return {
    id := ← record.withDefault "id" "" form.text
    transportName := ← record.withDefault "type" "" form.text
    roleName := ← record.withDefault "role" defaultRoleName form.text
    autoConnect := ← record.withDefault "auto_connect" true form.flag
    description := ← record.withDefault "description" "" form.text
    host := ← record.withDefault "host" none (form.maybe form.text)
    tcpPort := ← record.withDefault "port" none (form.maybe tcpPort)
    serialPort := ← record.withDefault "serial_port" none (form.maybe form.text) }

def endpoint (definition : ConnectionDefinition) : Endpoint :=
  ⟨definition.host, definition.tcpPort, definition.serialPort⟩

def toJson (definition : ConnectionDefinition) : Json :=
  .object ([("id", .text definition.id),
    ("type", .text definition.transportName),
    ("role", .text definition.roleName),
    ("auto_connect", .bool definition.autoConnect),
    ("description", .text definition.description)] ++ definition.endpoint.fields)

end ConnectionDefinition

end RadioAdmin
