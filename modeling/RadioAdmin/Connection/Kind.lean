/-!
# Roles and transports of connections

Both have lowercase names that are read in any mixture of cases.
-/
namespace RadioAdmin

/-- A text that names no role or no transport, as it was given. -/
inductive NameError where
  | unknownRole (text : String)
  | unknownTransport (text : String)
  deriving DecidableEq, Repr

def NameError.message : NameError → String
  | .unknownRole text => "unknown connection role: " ++ text
  | .unknownTransport text => "unknown connection type: " ++ text

/-- What a connection is for. -/
inductive Role where
  /-- Privileged configuration traffic. -/
  | admin
  /-- Ordinary traffic. -/
  | client
  deriving DecidableEq, Repr

namespace Role

def all : List Role := [.admin, .client]

def name : Role → String
  | .admin => "admin"
  | .client => "client"

instance : Inhabited Role := ⟨.client⟩

def parse (text : String) : Except NameError Role :=
  match all.find? fun role => role.name == text.toLower with
  | some role => .ok role
  | none => .error (.unknownRole text)

end Role

inductive Transport where
  | tcp
  | serial
  | mqtt
  deriving DecidableEq, Repr

namespace Transport

def all : List Transport := [.tcp, .serial, .mqtt]

def name : Transport → String
  | .tcp => "tcp"
  | .serial => "serial"
  | .mqtt => "mqtt"

def parse (text : String) : Except NameError Transport :=
  match all.find? fun transport => transport.name == text.toLower with
  | some transport => .ok transport
  | none => .error (.unknownTransport text)

end Transport

end RadioAdmin
