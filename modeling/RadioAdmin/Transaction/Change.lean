import RadioAdmin.Value.Basic
import RadioAdmin.Encoding.Hex

/-!
# Changes of configuration

A change is one mutation of one slot of a node. It starts as pending, or as skipped when
the node has the desired value already, and a pending change is resolved once, as applied
or as failed.
-/
namespace RadioAdmin

/-- The number of a node in the mesh. -/
structure NodeId where
  number : UInt32
  deriving DecidableEq, Repr

/-- Eight lowercase hexadecimal digits. -/
def NodeId.hex (node : NodeId) : String := String.ofList (Hex.padded 8 node.number.toNat)

/-- The kind of configuration that a change is about. -/
inductive ChangeKind where
  | config
  | moduleConfig
  | channel
  | owner
  deriving DecidableEq, Repr

namespace ChangeKind

def all : List ChangeKind := [.config, .moduleConfig, .channel, .owner]

def name : ChangeKind → String
  | .config => "config"
  | .moduleConfig => "module_config"
  | .channel => "channel"
  | .owner => "owner"

end ChangeKind

inductive ChangeStatus where
  /-- Awaiting an acknowledgment. -/
  | pending
  /-- Acknowledged by the node. -/
  | applied
  /-- Rejected or aborted. -/
  | failed
  /-- Met from the start and never transmitted. -/
  | skipped
  deriving DecidableEq, Repr

namespace ChangeStatus

def all : List ChangeStatus := [.pending, .applied, .failed, .skipped]

def name : ChangeStatus → String
  | .pending => "pending"
  | .applied => "applied"
  | .failed => "failed"
  | .skipped => "skipped"

/-- Whether no further step is possible. -/
def isTerminal (status : ChangeStatus) : Bool := status ≠ .pending

end ChangeStatus

structure Change where
  kind : ChangeKind
  node : NodeId
  /-- The slot, such as a section or a numbered channel. -/
  key : String
  /-- The value on the node before the change, if it is known. -/
  previous : Option Value
  desired : Value
  status : ChangeStatus
  errorMessage : Option String
  /-- The packet that applied the change. -/
  packet : Option UInt32

namespace Change

def isPending (change : Change) : Bool := change.status = .pending

def isPendingFor (key : String) (change : Change) : Bool := change.isPending && change.key == key

def apply (packet : Option UInt32) (change : Change) : Change :=
  { change with status := .applied, packet := packet }

def fail (message : String) (change : Change) : Change :=
  { change with status := .failed, errorMessage := some message }

end Change

/-- What is asked of the registry for a new change. -/
structure ChangeRequest where
  kind : ChangeKind
  node : NodeId
  key : String
  previous : Option Value
  desired : Value
  /-- Skip the change when the node has the desired value already. -/
  skipIfUnchanged : Bool

/-- The change of a request, not resolved in any way. -/
def ChangeRequest.toChange (request : ChangeRequest) (status : ChangeStatus) : Change where
  kind := request.kind
  node := request.node
  key := request.key
  previous := request.previous
  desired := request.desired
  status := status
  errorMessage := none
  packet := none

end RadioAdmin
