import RadioAdmin.Toml.Basic

/-!
# Tables in the making

Headers and dotted names of a document fill tables piece by piece. What may still be added
to a table depends on how it came about: a header may come after the headers below it, but
a table is declared once, and dotted names reach only tables that no header declares.
-/
namespace RadioAdmin.Toml

/-- How a table came about. -/
inductive Origin where
  /-- By a header of its own, or as the root. -/
  | declared
  /-- By the header of a table inside it. -/
  | implied
  /-- By a dotted name. -/
  | dotted
  deriving DecidableEq, Repr

/-- What stands under a name. The tables of an array that headers build are listed from the
last to the first. -/
inductive Slot where
  | content (value : Toml)
  | table (origin : Origin) (fields : List (String × Slot))
  | tables (last : Slot) (before : List Slot)

namespace Slot

def root : Slot := .table .declared []

/-- Change the table at a path. Missing tables are created on the way, and of an array of
tables the last is taken. A dotted path does not enter a table that was declared. -/
def change (dotted : Bool) (edit : Slot → Option Slot) : List String → Slot → Option Slot
  | [], slot => edit slot
  | name :: rest, .table origin fields =>
    let inner := match Fields.get? fields name with
      | none => change dotted edit rest (.table (if dotted then .dotted else .implied) [])
      | some (.content _) => none
      | some (.tables last before) => (change dotted edit rest last).map (.tables · before)
      | some (.table .declared inside) =>
        if dotted then none else change dotted edit rest (.table .declared inside)
      | some (.table other inside) => change dotted edit rest (.table other inside)
    inner.map fun slot => .table origin (Fields.insert fields name slot)
  | _ :: _, _ => none

/-- Fill the place of the last name of a path, from what stands there. -/
def fill (path : List String) (place : Option Slot → Option Slot) (slot : Slot) : Option Slot :=
  let name := path.getLastD ""
  let edit : Slot → Option Slot
    | .table origin fields =>
      (place (Fields.get? fields name)).map fun next =>
        .table origin (Fields.insert fields name next)
    | _ => none
  change false edit path.dropLast slot

/-- Give a content to a dotted name. The table that gets it has to be the one at hand, or
one that dotted names have built. -/
def define (path : List String) (value : Toml) (slot : Slot) : Option Slot :=
  let name := path.getLastD ""
  let parents := path.dropLast
  let edit : Slot → Option Slot
    | .table origin fields =>
      if (origin == .dotted) == parents.isEmpty || Fields.has fields name then none
      else some (.table origin (Fields.insert fields name (.content value)))
    | _ => none
  change true edit parents slot

/-- Declare the table at a path. -/
def declare (path : List String) : Slot → Option Slot :=
  fill path fun
    | none => some (.table .declared [])
    | some (.table .implied fields) => some (.table .declared fields)
    | _ => none

/-- Begin a further table of the array at a path. -/
def append (path : List String) : Slot → Option Slot :=
  fill path fun
    | none => some (.tables (.table .declared []) [])
    | some (.tables last before) => some (.tables (.table .declared []) (last :: before))
    | _ => none

mutual

def toToml : Slot → Toml
  | .content value => value
  | .table _ fields => .table (fieldsToToml fields)
  | .tables last before => .array (slotsToToml before [toToml last])

/-- Contents of slots that are listed backwards, in front of others. -/
def slotsToToml : List Slot → List Toml → List Toml
  | [], done => done
  | slot :: rest, done => slotsToToml rest (toToml slot :: done)

def fieldsToToml : List (String × Slot) → List (String × Toml)
  | [] => []
  | (name, slot) :: rest => (name, toToml slot) :: fieldsToToml rest

end

/-- The table of dotted names with contents. -/
def ofPairs (pairs : List (List String × Toml)) : Option Slot :=
  pairs.foldlM (fun slot pair => define pair.1 pair.2 slot) root

end Slot

end RadioAdmin.Toml
