import RadioAdmin.Startup.Basic

/-!
# Runs of roster operations

The operations that change a roster as data, and their answers.
-/
namespace RadioAdmin.Roster

inductive Op where
  | add (connection : Connection)
  | addAndConnect (connection : Connection)
  | remove (id : String)
  | setRole (id : String) (role : Role)
  | connectAll (role : Option Role)
  | disconnectAll (role : Option Role)
  | registerAll (factory : LinkFactory) (definitions : List ConnectionDefinition)

inductive Answer where
  | nothing
  | done (success : Bool)
  | outcomes (byId : List (String × Bool))
  | registered (count : Nat)

def step (roster : Roster) : Op → Roster × Answer
  | .add connection => (roster.add connection, .nothing)
  | .addAndConnect connection =>
    let (next, success) := roster.addAndConnect connection
    (next, .done success)
  | .remove id =>
    let (next, success) := roster.remove id
    (next, .done success)
  | .setRole id role =>
    let (next, success) := roster.setRole id role
    (next, .done success)
  | .connectAll role =>
    let (next, outcomes) := roster.connectAll role
    (next, .outcomes outcomes)
  | .disconnectAll role =>
    let (next, outcomes) := roster.disconnectAll role
    (next, .outcomes outcomes)
  | .registerAll factory definitions =>
    let (next, count) := Startup.registerAll factory roster definitions
    (next, .registered count)

/-- The roster after a list of operations, with their answers in order. -/
def run (roster : Roster) : List Op → Roster × List Answer
  | [] => (roster, [])
  | op :: rest =>
    let (next, answer) := roster.step op
    let (last, answers) := next.run rest
    (last, answer :: answers)

end RadioAdmin.Roster
