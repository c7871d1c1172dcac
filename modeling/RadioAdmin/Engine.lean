import RadioAdmin.AdminError
import RadioAdmin.Registry.Run
import RadioAdmin.Startup.Run

/-!
# The admin engine

Settings, the registry of transactions and the roster of connections of one process. An
admin error that calls for key configuration fails the change it answers, since no retry
can succeed before an operator has installed the keys; any other one leaves it pending.
-/
namespace RadioAdmin

structure Engine where
  settings : Settings
  registry : Registry
  roster : Roster

namespace Engine

def new (settings : Settings) : Engine := ⟨settings, Registry.empty, Roster.empty⟩

/-- The failure message of a change that was refused for want of keys. -/
def keyFailure (code : AdminErrorCode) : String :=
  code.spelling ++ ": node does not trust this admin key, configure admin keys on the node"

/-- React to the error code of an admin acknowledgment for a key of a transaction. -/
def handleAdminError (engine : Engine) (id : TransactionId) (key spelling : String) :
    Engine × ErrorClass :=
  let code := AdminErrorCode.ofSpelling spelling
  match code.errorClass with
  | .requiresKeyConfiguration =>
    ({ engine with registry := (engine.registry.markFailed id key (keyFailure code)).1 },
      .requiresKeyConfiguration)
  | other => (engine, other)

/-- Remove the transactions that ended longer ago than the settings allow. -/
def runMaintenance (engine : Engine) (now : Instant) : Engine × Nat :=
  let (registry, count) := engine.registry.cleanupOld engine.settings.transactionMaxAge now
  ({ engine with registry := registry }, count)

/-- Register the connections of the settings. -/
def registerConnections (engine : Engine) (factory : LinkFactory) : Engine × Nat :=
  let (roster, count) := Startup.registerAll factory engine.roster engine.settings.connections
  ({ engine with roster := roster }, count)

/-- The operations of an engine as data. -/
inductive Op where
  | registry (op : Registry.Op)
  | roster (op : Roster.Op)
  | adminError (id : TransactionId) (key spelling : String)
  | maintenance (now : Instant)
  | registerConnections (factory : LinkFactory)

inductive Answer where
  | registry (answer : Registry.Answer)
  | roster (answer : Roster.Answer)
  | classified (errorClass : ErrorClass)
  | removed (count : Nat)
  | registered (count : Nat)

def step (engine : Engine) : Op → Engine × Answer
  | .registry op =>
    let (registry, answer) := engine.registry.step op
    ({ engine with registry := registry }, .registry answer)
  | .roster op =>
    let (roster, answer) := engine.roster.step op
    ({ engine with roster := roster }, .roster answer)
  | .adminError id key spelling =>
    let (next, errorClass) := engine.handleAdminError id key spelling
    (next, .classified errorClass)
  | .maintenance now =>
    let (next, count) := engine.runMaintenance now
    (next, .removed count)
  | .registerConnections factory =>
    let (next, count) := engine.registerConnections factory
    (next, .registered count)

/-- The engine after a list of operations, with their answers in order. -/
def run (engine : Engine) : List Op → Engine × List Answer
  | [] => (engine, [])
  | op :: rest =>
    let (next, answer) := engine.step op
    let (last, answers) := next.run rest
    (last, answer :: answers)

end Engine

end RadioAdmin
