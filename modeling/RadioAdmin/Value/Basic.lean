import RadioAdmin.Fields

/-!
# Configuration values

Settings of a node arrive as nested data whose shape no schema is known for. A value is
one position of such data; a map keeps the order in which its keys were given.
-/
namespace RadioAdmin

inductive Value where
  | null
  | bool (flag : Bool)
  | int (number : Int64)
  | float (number : Float)
  | text (string : String)
  | bytes (octets : List UInt8)
  | list (items : List Value)
  | map (fields : List (String × Value))

namespace Value

instance : Inhabited Value := ⟨.null⟩

/-- The name of the kind of a value, as reports show it. -/
def kindName : Value → String
  | .null => "null"
  | .bool _ => "bool"
  | .int _ => "int"
  | .float _ => "float"
  | .text _ => "string"
  | .bytes _ => "bytes"
  | .list _ => "list"
  | .map _ => "map"

/-- The value under a key of a map. -/
def get? (value : Value) (key : String) : Option Value :=
  match value with
  | .map fields => Fields.get? fields key
  | _ => none

def asText? : Value → Option String
  | .text string => some string
  | _ => none

/-- A number as a double; an integer is rounded to the nearest one. -/
def asNumber? : Value → Option Float
  | .int number => some (Float.ofInt number.toInt)
  | .float number => some number
  | _ => none

/-- Whether a value counts as unset. Zero and false do not. -/
def isEmpty : Value → Bool
  | .null => true
  | .text string => string.isEmpty
  | .bytes octets => octets.isEmpty
  | .list items => items.isEmpty
  | .map fields => fields.isEmpty
  | .bool _ | .int _ | .float _ => false

/-- Whether a value counts as true: everything but false, zeros and the unset. -/
def isTruthy : Value → Bool
  | .bool flag => flag
  | .int number => number != 0
  | .float number => number != 0.0
  | value => !value.isEmpty

mutual

/-- Structural equality. Kinds never mix, doubles compare as numbers, and the order of
the keys of a map does not matter. -/
def same : Value → Value → Bool
  | .null, .null => true
  | .bool a, .bool b => a == b
  | .int a, .int b => a == b
  | .float a, .float b => a == b
  | .text a, .text b => a == b
  | .bytes a, .bytes b => a == b
  | .list a, .list b => sameItems a b
  | .map a, .map b => a.length == b.length && sameFields a b
  | _, _ => false

def sameItems : List Value → List Value → Bool
  | [], [] => true
  | a :: as, b :: bs => same a b && sameItems as bs
  | _, _ => false

/-- Whether each field has a like one on the other side. -/
def sameFields : List (String × Value) → List (String × Value) → Bool
  | [], _ => true
  | (key, a) :: rest, fields =>
    (match Fields.get? fields key with
      | some b => same a b
      | none => false) && sameFields rest fields

end

mutual

/-- Keys are distinct in every map at every depth, as they are in any value that was
read or built by inserting. -/
def WellFormed : Value → Prop
  | .list items => WellFormedItems items
  | .map fields => Fields.Distinct fields ∧ WellFormedFields fields
  | _ => True

def WellFormedItems : List Value → Prop
  | [] => True
  | item :: rest => WellFormed item ∧ WellFormedItems rest

def WellFormedFields : List (String × Value) → Prop
  | [] => True
  | (_, content) :: rest => WellFormed content ∧ WellFormedFields rest

end

end Value

end RadioAdmin
