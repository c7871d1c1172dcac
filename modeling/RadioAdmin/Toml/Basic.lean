import RadioAdmin.Record

/-!
# TOML contents

The contents of a TOML document. Of dates and times only the text is kept.
-/
namespace RadioAdmin

inductive Toml where
  | bool (value : Bool)
  | integer (value : Int)
  | float (value : Float)
  | text (value : String)
  | moment (written : String)
  | array (items : List Toml)
  | table (fields : List (String × Toml))

namespace Toml

def text? : Toml → Option String
  | .text value => some value
  | _ => none

def flag? : Toml → Option Bool
  | .bool value => some value
  | _ => none

def natural? : Toml → Option Nat
  | .integer value => if 0 ≤ value then some value.toNat else none
  | _ => none

def list? : Toml → Option (List Toml)
  | .array items => some items
  | _ => none

/-- A record is a table, or an array of its contents in order. A date names none of its
fields, so that all of them are missing. -/
def record? (known : List String) : Toml → Option (Record Toml)
  | .table fields => Record.ofMap known fields
  | .array items => some (Record.ofList known items)
  | .moment _ => Record.ofMap known []
  | _ => none

/-- How TOML shows records and their contents. Nothing stands for absence. -/
def form : Form Toml := ⟨text?, flag?, natural?, list?, record?, fun _ => some false⟩

end Toml

end RadioAdmin
