import RadioAdmin.Connection.Kind
import RadioAdmin.Connection.Link
import RadioAdmin.Fields

/-!
# The roster of connections

Named connections in the order of their registration, over a table of links that they may
share. A connection that leaves the roster, removed or replaced, gives up its link.
-/
namespace RadioAdmin

structure Connection where
  id : String
  transport : Transport
  role : Role
  link : LinkId
  description : String
  /-- Whether connecting all connections includes this one. -/
  autoConnect : Bool
  deriving DecidableEq, Repr

structure Roster where
  entries : Fields Connection
  links : Links

namespace Roster

def empty : Roster := ⟨[], []⟩

def get? (roster : Roster) (id : String) : Option Connection := Fields.get? roster.entries id

/-- All connections in order. -/
def all (roster : Roster) : List Connection := Fields.contents roster.entries

def count (roster : Roster) : Nat := roster.entries.length

def isEmpty (roster : Roster) : Bool := roster.entries.isEmpty

def isConnected (roster : Roster) (connection : Connection) : Bool :=
  Links.isUp roster.links connection.link

def withRole (roster : Roster) (role : Role) : List Connection :=
  roster.all.filter fun connection => connection.role = role

def firstWithRole? (roster : Roster) (role : Role) : Option Connection :=
  roster.all.find? fun connection => connection.role = role

/-- Add a link to the table. -/
def createLink (roster : Roster) (link : Link) : Roster × LinkId :=
  let (links, id) := Links.create roster.links link
  ({ roster with links := links }, id)

def connectLink (roster : Roster) (id : LinkId) : Roster × Bool :=
  ({ roster with links := Links.connect roster.links id }, Links.isReachable roster.links id)

def disconnectLink (roster : Roster) (id : LinkId) : Roster :=
  { roster with links := Links.disconnect roster.links id }

/-- Register a connection in the place of one with its identifier, if there is one. A
replaced link that is up is disconnected, unless the new connection has the same. -/
def add (roster : Roster) (connection : Connection) : Roster :=
  let next := { roster with entries := Fields.insert roster.entries connection.id connection }
  match roster.get? connection.id with
  | some previous =>
    if previous.link ≠ connection.link ∧ roster.isConnected previous then
      next.disconnectLink previous.link
    else next
  | none => next

/-- Register a connection and try to connect it, unless it is connected by hand. -/
def addAndConnect (roster : Roster) (connection : Connection) : Roster × Bool :=
  let next := roster.add connection
  if connection.autoConnect then next.connectLink connection.link else (next, false)

/-- Take a connection out and disconnect its link if that is up. -/
def remove (roster : Roster) (id : String) : Roster × Bool :=
  match roster.get? id with
  | none => (roster, false)
  | some connection =>
    let next := { roster with entries := Fields.erase roster.entries id }
    (if roster.isConnected connection then next.disconnectLink connection.link else next, true)

def setRole (roster : Roster) (id : String) (role : Role) : Roster × Bool :=
  if Fields.has roster.entries id then
    ({ roster with
        entries := Fields.modify roster.entries id fun connection =>
          { connection with role := role } }, true)
  else (roster, false)

/-- The link for the traffic of a role: that of its first connection that is up, or else
of its first connection. -/
def linkFor? (roster : Roster) (role : Role) : Option LinkId :=
  let candidates := roster.withRole role
  ((candidates.find? roster.isConnected).or candidates.head?).map Connection.link

/-- The connections that a bulk operation is about. -/
def selected (roster : Roster) : Option Role → List Connection
  | some role => roster.withRole role
  | none => roster.all

/-- Connect links one after the other; a connection by hand is left alone. -/
def connectEach : List Connection → Links → Links × List (String × Bool)
  | [], links => (links, [])
  | connection :: rest, links =>
    if connection.autoConnect then
      let outcome := Links.isReachable links connection.link
      let (last, answers) := connectEach rest (Links.connect links connection.link)
      (last, (connection.id, outcome) :: answers)
    else
      let (last, answers) := connectEach rest links
      (last, (connection.id, false) :: answers)

/-- Connect all connections, or those of a role, and tell the outcome of each. -/
def connectAll (roster : Roster) (role : Option Role) : Roster × List (String × Bool) :=
  let (links, answers) := connectEach (roster.selected role) roster.links
  ({ roster with links := links }, answers)

/-- Disconnect all connections, or those of a role. -/
def disconnectAll (roster : Roster) (role : Option Role) : Roster × List (String × Bool) :=
  let chosen := roster.selected role
  let links := chosen.foldl (fun links connection => Links.disconnect links connection.link)
    roster.links
  ({ roster with links := links }, chosen.map fun connection => (connection.id, true))

end Roster

end RadioAdmin
