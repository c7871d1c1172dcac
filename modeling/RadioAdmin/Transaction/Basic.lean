import RadioAdmin.Transaction.Change
import RadioAdmin.Time.Instant

/-!
# Transactions

A transaction groups the changes for one node, in the order of their registration. It
takes changes and resolutions while it is active; once it has ended it stays as it is.
-/
namespace RadioAdmin

structure TransactionId where
  text : String
  deriving DecidableEq, Repr

/-- The identifier of the transaction with a number in the sequence of all of them. -/
def TransactionId.generate (node : NodeId) (sequence : UInt64) : TransactionId :=
  ⟨"tx_" ++ node.hex ++ "_" ++ toString sequence.toNat⟩

structure Transaction where
  id : TransactionId
  node : NodeId
  changes : List Change
  isActive : Bool
  beginSent : Bool
  commitSent : Bool
  createdAt : Instant
  endedAt : Option Instant

/-- How many changes a transaction has and what became of them. -/
structure Summary where
  id : TransactionId
  node : NodeId
  total : Nat
  applied : Nat
  skipped : Nat
  failed : Nat
  pending : Nat
  beginSent : Bool
  commitSent : Bool
  deriving DecidableEq, Repr

/-- The value that undoes one applied change. -/
structure RevertEntry where
  kind : ChangeKind
  key : String
  previous : Value
  node : NodeId

namespace Transaction

def start (id : TransactionId) (node : NodeId) (now : Instant) : Transaction where
  id := id
  node := node
  changes := []
  isActive := true
  beginSent := false
  commitSent := false
  createdAt := now
  endedAt := none

def pending (transaction : Transaction) : List Change := transaction.changes.filter Change.isPending

def hasPending (transaction : Transaction) : Bool := transaction.changes.any Change.isPending

/-- Replace the first change that meets a condition, if one does. -/
def replaceFirst? (meets : Change → Bool) (replace : Change → Change) :
    List Change → Option (List Change)
  | [] => none
  | change :: rest =>
    if meets change then some (replace change :: rest)
    else (replaceFirst? meets replace rest).map (change :: ·)

/-- Resolve the first pending change for a key. -/
def resolveFirst? (transaction : Transaction) (key : String) (resolve : Change → Change) :
    Option Transaction :=
  (replaceFirst? (Change.isPendingFor key) resolve transaction.changes).map fun changes =>
    { transaction with changes := changes }

/-- Deactivate; the time of the first end is kept. -/
def finish (transaction : Transaction) (now : Instant) : Transaction :=
  { transaction with isActive := false, endedAt := some (transaction.endedAt.getD now) }

/-- Fail every pending change. -/
def failPending (transaction : Transaction) (message : String) : Transaction :=
  { transaction with
    changes := transaction.changes.map fun change =>
      if change.isPending then change.fail message else change }

def countOf (transaction : Transaction) (status : ChangeStatus) : Nat :=
  transaction.changes.countP fun change => change.status = status

def summary (transaction : Transaction) : Summary where
  id := transaction.id
  node := transaction.node
  total := transaction.changes.length
  applied := transaction.countOf .applied
  skipped := transaction.countOf .skipped
  failed := transaction.countOf .failed
  pending := transaction.countOf .pending
  beginSent := transaction.beginSent
  commitSent := transaction.commitSent

/-- The previous values of the applied changes that have one, in order of registration. -/
def revertData (transaction : Transaction) : List RevertEntry :=
  (transaction.changes.filter fun change => change.status = .applied).filterMap fun change =>
    change.previous.map fun previous => ⟨change.kind, change.key, previous, change.node⟩

end Transaction

end RadioAdmin
