import RadioAdmin.Connection.Roster
import RadioAdmin.Json.Basic

/-!
# Status of connections

What a status report shows of each connection and of all together. An endpoint is shown
only as far as it belongs to the transport of the connection.
-/
namespace RadioAdmin

structure ConnectionStatus where
  id : String
  transport : Transport
  role : Role
  description : String
  isConnected : Bool
  autoConnect : Bool
  endpoint : Endpoint
  deriving DecidableEq, Repr

structure RosterStatus where
  total : Nat
  admins : Nat
  clients : Nat
  adminConnected : Bool
  clientConnected : Bool
  connections : List ConnectionStatus
  deriving DecidableEq, Repr

/-- The part of an endpoint that a transport uses. -/
def Endpoint.seenBy (endpoint : Endpoint) : Transport → Endpoint
  | .tcp => { endpoint with serialPort := .none }
  | .serial => ⟨.none, .none, endpoint.serialPort⟩
  | .mqtt => Endpoint.none

namespace Roster

def statusOf (roster : Roster) (connection : Connection) : ConnectionStatus where
  id := connection.id
  transport := connection.transport
  role := connection.role
  description := connection.description
  isConnected := roster.isConnected connection
  autoConnect := connection.autoConnect
  endpoint := (Links.get roster.links connection.link).endpoint.seenBy connection.transport

def status (roster : Roster) : RosterStatus where
  total := roster.all.length
  admins := (roster.withRole .admin).length
  clients := (roster.withRole .client).length
  adminConnected := (roster.withRole .admin).any roster.isConnected
  clientConnected := (roster.withRole .client).any roster.isConnected
  connections := roster.all.map roster.statusOf

end Roster

/-- A field that is left out when there is nothing in it. -/
def Json.given {α : Type} (name : String) (toJson : α → Json) (content : Option α) :
    List (String × Json) :=
  (content.map fun x => (name, toJson x)).toList

def Endpoint.fields (endpoint : Endpoint) : List (String × Json) :=
  Json.given "host" .text endpoint.host ++
    Json.given "port" (fun tcpPort => .integer tcpPort.toNat) endpoint.tcpPort ++
    Json.given "serial_port" .text endpoint.serialPort

def ConnectionStatus.toJson (status : ConnectionStatus) : Json :=
  .object ([("connection_id", .text status.id),
    ("connection_type", .text status.transport.name),
    ("role", .text status.role.name),
    ("description", .text status.description),
    ("is_connected", .bool status.isConnected),
    ("auto_connect", .bool status.autoConnect)] ++ status.endpoint.fields)

def RosterStatus.toJson (status : RosterStatus) : Json :=
  .object [("total_connections", .integer status.total),
    ("admin_connections", .integer status.admins),
    ("client_connections", .integer status.clients),
    ("admin_connected", .bool status.adminConnected),
    ("client_connected", .bool status.clientConnected),
    ("connections", .array (status.connections.map ConnectionStatus.toJson))]

end RadioAdmin
