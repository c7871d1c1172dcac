import RadioAdmin.Json.Reader
import RadioAdmin.Record

/-!
# Records in JSON

A record is an object or an array of no more contents than it has fields. A name out of
a fixed set is a quoted text, or an object that maps it to null.
-/
namespace RadioAdmin.RawJson

def text? : RawJson → Option String
  | .text pieces => textOfPieces pieces
  | _ => none

def flag? : RawJson → Option Bool
  | .bool value => some value
  | _ => none

def natural? : RawJson → Option Nat
  | .number written => match written.toJson with
    | some (.integer value) => if 0 ≤ value then some value.toNat else none
    | _ => none
  | _ => none

def list? : RawJson → Option (List RawJson)
  | .array items => some items
  | _ => none

/-- The fields of an object with their names decoded. -/
def fields? : RawJson → Option (List (String × RawJson))
  | .object fields => fields.mapM fun field => (textOfPieces field.1).map (·, field.2)
  | _ => none

def record? (known : List String) : RawJson → Option (Record RawJson)
  | .array items => if items.length ≤ known.length then some (Record.ofList known items) else none
  | raw => (fields? raw).bind (Record.ofMap known)

def isNull : RawJson → Bool
  | .null => true
  | _ => false

/-- How JSON shows records and their contents. -/
def form : Form RawJson := ⟨text?, flag?, natural?, list?, record?, fun raw => some (isNull raw)⟩

/-- The one of a set of named things that a text gives. -/
def choice? {α : Type} (all : List α) (name : α → String) (raw : RawJson) : Option α :=
  let written := match raw with
    | .object [(pieces, .null)] => textOfPieces pieces
    | other => text? other
  written.bind fun given => all.find? fun one => name one == given

end RadioAdmin.RawJson
