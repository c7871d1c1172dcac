import RadioAdmin.Transaction.Basic
import RadioAdmin.Compare.Stored
import RadioAdmin.Time.Rfc3339

/-!
# Transactions as JSON

Changes, transactions and revert entries are stored as objects of all their fields in
order of declaration, with null for what is absent and times in universal time.
-/
namespace RadioAdmin

def NodeId.toJson (node : NodeId) : Json := .integer node.number.toNat

/-- A word of 32 bits. -/
def RawJson.word32? (raw : RawJson) : Option UInt32 :=
  (RawJson.form.below UInt32.size raw).map UInt32.ofNat

def NodeId.ofRaw (raw : RawJson) : Option NodeId := raw.word32?.map NodeId.mk

def TransactionId.ofRaw (raw : RawJson) : Option TransactionId := raw.text?.map TransactionId.mk

namespace Change

def fieldNames : List String :=
  ["change_type", "node_id", "config_key", "original_value", "new_value", "status",
    "error_message", "packet_id"]

def toJson (change : Change) : Json :=
  .object [("change_type", .text change.kind.name),
    ("node_id", change.node.toJson),
    ("config_key", .text change.key),
    ("original_value", Json.ofValue? change.previous),
    ("new_value", change.desired.toJson),
    ("status", .text change.status.name),
    ("error_message", (change.errorMessage.map Json.text).getD .null),
    ("packet_id", (change.packet.map fun packet => Json.integer packet.toNat).getD .null)]

/-- A change inside a document whose change may nest `room` containers. -/
def ofRaw (room : Nat) (raw : RawJson) : Option Change := do
  let record ← RawJson.record? fieldNames raw
  let value := RawJson.value? (room - 1)
  return {
    kind := ← record.required "change_type" (RawJson.choice? ChangeKind.all ChangeKind.name)
    node := ← record.required "node_id" NodeId.ofRaw
    key := ← record.required "config_key" RawJson.text?
    previous := ← record.optional "original_value" (RawJson.form.maybe value)
    desired := ← record.required "new_value" value
    status := ← record.required "status" (RawJson.choice? ChangeStatus.all ChangeStatus.name)
    errorMessage := ← record.optional "error_message" (RawJson.form.maybe RawJson.text?)
    packet := ← record.optional "packet_id" (RawJson.form.maybe RawJson.word32?) }

/-- The change that a JSON text stores. -/
def parse (text : String) : Option Change := (RawJson.read text).bind (ofRaw Json.nestingLimit)

end Change

def RevertEntry.toJson (entry : RevertEntry) : Json :=
  .object [("change_type", .text entry.kind.name),
    ("config_key", .text entry.key),
    ("original_value", entry.previous.toJson),
    ("node_id", entry.node.toJson)]

namespace Transaction

def fieldNames : List String :=
  ["transaction_id", "node_id", "changes", "is_active", "begin_sent", "commit_sent", "created_at",
    "ended_at"]

def toJson (transaction : Transaction) : Json :=
  .object [("transaction_id", .text transaction.id.text),
    ("node_id", transaction.node.toJson),
    ("changes", .array (transaction.changes.map Change.toJson)),
    ("is_active", .bool transaction.isActive),
    ("begin_sent", .bool transaction.beginSent),
    ("commit_sent", .bool transaction.commitSent),
    ("created_at", .text transaction.createdAt.print),
    ("ended_at", (transaction.endedAt.map fun ended => Json.text ended.print).getD .null)]

def ofRaw (raw : RawJson) : Option Transaction := do
  let record ← RawJson.record? fieldNames raw
  let changes (content : RawJson) : Option (List Change) :=
    content.list?.bind fun items => items.mapM (Change.ofRaw (Json.nestingLimit - 2))
  let instant (content : RawJson) : Option Instant := content.text?.bind Instant.parse
  return {
    id := ← record.required "transaction_id" TransactionId.ofRaw
    node := ← record.required "node_id" NodeId.ofRaw
    changes := ← record.required "changes" changes
    isActive := ← record.required "is_active" RawJson.flag?
    beginSent := ← record.required "begin_sent" RawJson.flag?
    commitSent := ← record.required "commit_sent" RawJson.flag?
    createdAt := ← record.required "created_at" instant
    endedAt := ← record.optional "ended_at" (RawJson.form.maybe instant) }

/-- The transaction that a JSON text stores. -/
def parse (text : String) : Option Transaction := (RawJson.read text).bind ofRaw

end Transaction

end RadioAdmin
