import RadioAdmin.Transaction.Basic
import RadioAdmin.Compare.Configuration
import RadioAdmin.Fields

/-!
# The registry of transactions

All transactions by their identifiers, with the number of the last one begun. Whatever
reads the clock takes the reading as an argument. An operation that is refused leaves the
registry as it was.
-/
namespace RadioAdmin

inductive RegistryError where
  | notFound (id : TransactionId)
  | inactive (id : TransactionId)
  deriving DecidableEq, Repr

namespace RegistryError

def message : RegistryError → String
  | .notFound id => "transaction not found: " ++ id.text
  | .inactive id => "transaction is not active: " ++ id.text

def isNotFound : RegistryError → Bool
  | .notFound _ => true
  | .inactive _ => false

def isInvalidState : RegistryError → Bool
  | .notFound _ => false
  | .inactive _ => true

def transactionId : RegistryError → TransactionId
  | .notFound id | .inactive id => id

end RegistryError

structure Registry where
  /-- Each transaction under the text of its identifier. -/
  transactions : Fields Transaction
  sequence : UInt64

namespace Registry

/-- The failure of changes that were pending when their transaction was aborted. -/
def abortMessage : String := "Transaction aborted"

def empty : Registry := ⟨[], 0⟩

def get? (registry : Registry) (id : TransactionId) : Option Transaction :=
  Fields.get? registry.transactions id.text

/-- Store a transaction that has been changed. -/
def put (registry : Registry) (transaction : Transaction) : Registry :=
  { registry with
    transactions := Fields.insert registry.transactions transaction.id.text transaction }

/-- The stored transaction of an identifier, if it is active. -/
def active (registry : Registry) (id : TransactionId) : Except RegistryError Transaction :=
  match registry.get? id with
  | none => .error (.notFound id)
  | some transaction => if transaction.isActive then .ok transaction else .error (.inactive id)

/-- Change an active transaction in place. -/
def update (registry : Registry) (id : TransactionId) (change : Transaction → Transaction) :
    Registry :=
  { registry with transactions := Fields.modify registry.transactions id.text change }

/-- Begin a transaction for a node. -/
def begin (registry : Registry) (node : NodeId) (now : Instant) : Registry × Transaction :=
  let sequence := registry.sequence + 1
  let transaction := Transaction.start (.generate node sequence) node now
  ({ registry with sequence := sequence }.put transaction, transaction)

/-- The status of a new change: skipped when that is asked for and the known previous value
agrees with the desired one. -/
def initialStatus (request : ChangeRequest) : ChangeStatus :=
  match request.previous with
  | some previous =>
    if request.skipIfUnchanged &&
        (Compare.compareConfigs request.desired previous (some request.key) true).isEmpty then
      .skipped
    else .pending
  | none => .pending

/-- Append a change to an active transaction. Earlier changes of the key are kept. -/
def register (registry : Registry) (id : TransactionId) (request : ChangeRequest) :
    Except RegistryError (Registry × Change) := do
  let change := request.toChange (initialStatus request)
  let _ ← registry.active id
  return (registry.update id fun transaction =>
    { transaction with changes := transaction.changes ++ [change] }, change)

/-- Resolve the first pending change of a key in an active transaction. -/
def mark (registry : Registry) (id : TransactionId) (key : String) (resolve : Change → Change) :
    Registry × Bool :=
  match registry.active id with
  | .error _ => (registry, false)
  | .ok transaction => match transaction.resolveFirst? key resolve with
    | some resolved => (registry.update id fun _ => resolved, true)
    | none => (registry, false)

def markApplied (registry : Registry) (id : TransactionId) (key : String)
    (packet : Option UInt32) : Registry × Bool :=
  registry.mark id key (Change.apply packet)

def markFailed (registry : Registry) (id : TransactionId) (key message : String) :
    Registry × Bool :=
  registry.mark id key (Change.fail message)

/-- Change an active transaction and say whether it is one. -/
def changeActive (registry : Registry) (id : TransactionId) (change : Transaction → Transaction) :
    Registry × Bool :=
  match registry.active id with
  | .error _ => (registry, false)
  | .ok _ => (registry.update id change, true)

/-- Note that the marker of the begin has been sent. -/
def markBeginSent (registry : Registry) (id : TransactionId) : Registry × Bool :=
  registry.changeActive id fun transaction => { transaction with beginSent := true }

/-- Note that the marker of the commit has been sent. -/
def markCommitSent (registry : Registry) (id : TransactionId) : Registry × Bool :=
  registry.changeActive id fun transaction => { transaction with commitSent := true }

/-- End a transaction and report on it; one that has ended reports the same again. -/
def complete (registry : Registry) (id : TransactionId) (now : Instant) :
    Except RegistryError (Registry × Summary) :=
  match registry.get? id with
  | none => .error (.notFound id)
  | some transaction => .ok (registry.update id (·.finish now), (transaction.finish now).summary)

/-- End an active transaction, failing its pending changes. -/
def abort (registry : Registry) (id : TransactionId) (now : Instant) : Registry × Bool :=
  registry.changeActive id fun transaction => (transaction.failPending abortMessage).finish now

/-- Whether a transaction has ended at or before a time. -/
def hasEndedBy (cutoff : Instant) (transaction : Transaction) : Bool :=
  !transaction.isActive && !(transaction.endedAt.any fun ended => ended.after cutoff)

/-- Remove the transactions that ended at or before a time, and count them. -/
def cleanupEndedBefore (registry : Registry) (cutoff : Instant) : Registry × Nat :=
  let kept := registry.transactions.filter fun entry => !hasEndedBy cutoff entry.2
  ({ registry with transactions := kept }, registry.transactions.length - kept.length)

/-- Remove the transactions that ended at least an age in seconds ago. An age that reaches
out of the range of time removes none. -/
def cleanupOld (registry : Registry) (age : UInt64) (now : Instant) : Registry × Nat :=
  match now.minusSeconds? age.toNat with
  | some cutoff => registry.cleanupEndedBefore cutoff
  | none => (registry, 0)

/-- Whether a change is pending; false for an unknown transaction. -/
def hasPending (registry : Registry) (id : TransactionId) : Bool :=
  (registry.get? id).any Transaction.hasPending

def pendingChanges (registry : Registry) (id : TransactionId) : List Change :=
  ((registry.get? id).map Transaction.pending).getD []

def allChanges (registry : Registry) (id : TransactionId) : List Change :=
  ((registry.get? id).map Transaction.changes).getD []

def revertData (registry : Registry) (id : TransactionId) : List RevertEntry :=
  ((registry.get? id).map Transaction.revertData).getD []

def count (registry : Registry) : Nat := registry.transactions.length

/-- The identifiers of the active transactions, sorted by their text. -/
def activeIds (registry : Registry) : List TransactionId :=
  let active := (Fields.contents registry.transactions).filter Transaction.isActive
  (active.map Transaction.id).mergeSort fun a b => !(b.text < a.text)

end Registry

end RadioAdmin
