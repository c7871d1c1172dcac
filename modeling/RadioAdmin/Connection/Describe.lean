import RadioAdmin.Connection.Roster
import RadioAdmin.Text.Quoted

/-!
# Diagnostic text of connections

One line on a connection or on a whole roster. The link of a connection is not shown, only
whether it is up; of a roster only the identifiers are.
-/
namespace RadioAdmin

/-- The name of a role as a title. -/
def Role.title : Role → String
  | .admin => "Admin"
  | .client => "Client"

/-- The name of a transport as a title. -/
def Transport.title : Transport → String
  | .tcp => "Tcp"
  | .serial => "Serial"
  | .mqtt => "Mqtt"

namespace Roster

private def flagText (flag : Bool) : String := if flag then "true" else "false"

/-- A connection with its named parts; two dots stand for the parts that are left out. -/
def describe (roster : Roster) (connection : Connection) : String :=
  let parts := [("connection_id", Text.quoted connection.id),
    ("connection_type", connection.transport.title),
    ("role", connection.role.title),
    ("description", Text.quoted connection.description),
    ("auto_connect", flagText connection.autoConnect),
    ("is_connected", flagText (roster.isConnected connection))]
  "ConnectionInfo \x7b " ++ String.join (parts.map fun part => part.1 ++ ": " ++ part.2 ++ ", ") ++
    ".. \x7d"

/-- The identifiers of all connections in order. -/
def describeAll (roster : Roster) : String :=
  "ConnectionManager \x7b connections: [" ++
    ", ".intercalate (roster.entries.map fun entry => Text.quoted entry.1) ++ "] \x7d"

end Roster

end RadioAdmin
