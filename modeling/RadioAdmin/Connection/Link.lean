/-!
# Links

A link is the live end of a transport. Several connections may use the same link, so
links stand in a table of their own and connections refer to them by their place in it.
-/
namespace RadioAdmin

/-- Where a link leads, as far as its transport says so. -/
structure Endpoint where
  host : Option String
  tcpPort : Option UInt16
  serialPort : Option String
  deriving DecidableEq, Repr

def Endpoint.none : Endpoint := ⟨.none, .none, .none⟩

structure Link where
  isUp : Bool
  /-- Whether an attempt to connect succeeds. -/
  isReachable : Bool
  /-- Attempts to connect, counted in a word that wraps. -/
  connects : UInt64
  /-- Disconnections, counted in a word that wraps. -/
  disconnects : UInt64
  endpoint : Endpoint
  deriving DecidableEq, Repr

namespace Link

/-- A reachable link that is down and leads to an endpoint. -/
def toward (endpoint : Endpoint) : Link := ⟨false, true, 0, 0, endpoint⟩

def plain : Link := toward Endpoint.none

/-- A link to which no attempt to connect succeeds. -/
def unreachable : Link := { plain with isReachable := false }

def tcp (host : String) (tcpPort : UInt16) : Link := toward ⟨some host, some tcpPort, none⟩

def serial (path : String) : Link := toward ⟨none, none, some path⟩

/-- Try to connect; the link is up afterwards exactly when the attempt succeeds. -/
def connect (link : Link) : Link :=
  { link with connects := link.connects + 1, isUp := link.isReachable }

def disconnect (link : Link) : Link :=
  { link with disconnects := link.disconnects + 1, isUp := false }

def connectCalls (link : Link) : Nat := link.connects.toNat

def disconnectCalls (link : Link) : Nat := link.disconnects.toNat

end Link

/-- The place of a link in the table. -/
structure LinkId where
  index : Nat
  deriving DecidableEq, Repr

/-- All links in the order of their creation. -/
abbrev Links := List Link

namespace Links

/-- The link at a place; past the end of the table there is only an unreachable one. -/
def get (links : Links) (id : LinkId) : Link := links.getD id.index Link.unreachable

def isUp (links : Links) (id : LinkId) : Bool := (get links id).isUp

def connect (links : Links) (id : LinkId) : Links := links.modify id.index Link.connect

def disconnect (links : Links) (id : LinkId) : Links := links.modify id.index Link.disconnect

/-- Whether the next attempt to connect succeeds. -/
def isReachable (links : Links) (id : LinkId) : Bool := (get links id).isReachable

/-- Add a link at the end of the table. -/
def create (links : Links) (link : Link) : Links × LinkId := (links ++ [link], ⟨links.length⟩)

end Links

end RadioAdmin
