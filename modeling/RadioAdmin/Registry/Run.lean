import RadioAdmin.Registry.Basic

/-!
# Runs of registry operations

The operations that change a registry as data, each with the clock reading it needs, and
their answers. A run applies a list of them in order.
-/
namespace RadioAdmin.Registry

inductive Op where
  | begin (node : NodeId) (now : Instant)
  | register (id : TransactionId) (request : ChangeRequest)
  | markApplied (id : TransactionId) (key : String) (packet : Option UInt32)
  | markFailed (id : TransactionId) (key message : String)
  | markBeginSent (id : TransactionId)
  | markCommitSent (id : TransactionId)
  | complete (id : TransactionId) (now : Instant)
  | abort (id : TransactionId) (now : Instant)
  | cleanupOld (age : UInt64) (now : Instant)
  | cleanupEndedBefore (cutoff : Instant)

inductive Answer where
  | begun (transaction : Transaction)
  | registered (change : Change)
  | refused (error : RegistryError)
  | done (success : Bool)
  | completed (summary : Summary)
  | removed (count : Nat)

def step (registry : Registry) : Op → Registry × Answer
  | .begin node now =>
    let (next, transaction) := registry.begin node now
    (next, .begun transaction)
  | .register id request => match registry.register id request with
    | .ok (next, change) => (next, .registered change)
    | .error error => (registry, .refused error)
  | .markApplied id key packet =>
    let (next, success) := registry.markApplied id key packet
    (next, .done success)
  | .markFailed id key message =>
    let (next, success) := registry.markFailed id key message
    (next, .done success)
  | .markBeginSent id =>
    let (next, success) := registry.markBeginSent id
    (next, .done success)
  | .markCommitSent id =>
    let (next, success) := registry.markCommitSent id
    (next, .done success)
  | .complete id now => match registry.complete id now with
    | .ok (next, summary) => (next, .completed summary)
    | .error error => (registry, .refused error)
  | .abort id now =>
    let (next, success) := registry.abort id now
    (next, .done success)
  | .cleanupOld age now =>
    let (next, count) := registry.cleanupOld age now
    (next, .removed count)
  | .cleanupEndedBefore cutoff =>
    let (next, count) := registry.cleanupEndedBefore cutoff
    (next, .removed count)

/-- The registry after a list of operations, with their answers in order. -/
def run (registry : Registry) : List Op → Registry × List Answer
  | [] => (registry, [])
  | op :: rest =>
    let (next, answer) := registry.step op
    let (last, answers) := next.run rest
    (last, answer :: answers)

end RadioAdmin.Registry
