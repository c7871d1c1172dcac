import RadioAdmin.Value.Basic
import RadioAdmin.Json.Printer
import RadioAdmin.Encoding.Base64

/-!
# Values as JSON

JSON has no byte strings and no infinite doubles: bytes are written as base64 text and
what is not finite as null. Reading tells integers from doubles by the written number,
and an integer outside the signed words of 64 bits becomes a double.
-/
namespace RadioAdmin.Value

mutual

def toJson : Value → Json
  | .null => .null
  | .bool flag => .bool flag
  | .int number => .integer number.toInt
  | .float number => if number.isFinite then .float number else .null
  | .text string => .text string
  | .bytes octets => .text (Base64.encode octets)
  | .list items => .array (itemsToJson items)
  | .map fields => .object (fieldsToJson fields)

def itemsToJson : List Value → List Json
  | [] => []
  | item :: rest => toJson item :: itemsToJson rest

def fieldsToJson : List (String × Value) → List (String × Json)
  | [] => []
  | (key, content) :: rest => (key, toJson content) :: fieldsToJson rest

end

/-- An integer of a JSON text as a value. -/
def ofInteger (number : Int) : Value :=
  if Int64.minValue.toInt ≤ number ∧ number ≤ Int64.maxValue.toInt then .int (Int64.ofInt number)
  else .float (Float.ofInt number)

mutual

def ofJson : Json → Value
  | .null => .null
  | .bool value => .bool value
  | .integer value => ofInteger value
  | .float value => .float value
  | .text value => .text value
  | .array items => .list (itemsOfJson items)
  | .object fields => .map (fieldsOfJson fields)

def itemsOfJson : List Json → List Value
  | [] => []
  | item :: rest => ofJson item :: itemsOfJson rest

def fieldsOfJson : List (String × Json) → List (String × Value)
  | [] => []
  | (name, content) :: rest => (name, ofJson content) :: fieldsOfJson rest

end

/-- The compact JSON text of a value. -/
def jsonText (value : Value) : String := value.toJson.print

/-- The text of a value in reports: text as it is, bytes as base64, all else as JSON. -/
def display : Value → String
  | .text string => string
  | .bytes octets => Base64.encode octets
  | value => value.jsonText

end RadioAdmin.Value
