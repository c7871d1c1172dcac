import RadioAdmin.Value.Basic
import RadioAdmin.FieldPath
import RadioAdmin.Encoding.Base64
import RadioAdmin.Encoding.Hex

/-!
# Key material

Keys are base64 by convention, but older callers write hex, nodes report raw bytes and
forms hold lists of numbers. All spellings of a key come down to its bytes here.
-/
namespace RadioAdmin.KeyMaterial

/-- The names of the fields that hold keys. -/
def fieldNames : List String := ["psk", "admin_key", "private_key", "public_key"]

/-- Whether a field holds a key: the last segment of its path says so, in any case. -/
def isKeyField (path : String) : Bool :=
  fieldNames.any fun name => (FieldPath.leaf path).toLower == name

/-- A number that is a byte. -/
def byte? : Value → Option UInt8
  | .int number =>
    if 0 ≤ number.toInt ∧ number.toInt < 256 then some (UInt8.ofNat number.toInt.toNat) else none
  | _ => none

/-- The bytes of a list of numbers that are all bytes; an empty list is no key. -/
def ofList (items : List Value) : Option (List UInt8) :=
  if items.isEmpty then none else items.mapM byte?

/-- The bytes of a text: base64 if it is that, hex if it is that, its own encoding if neither. -/
def ofText (text : String) : List UInt8 :=
  match Base64.decode text with
  | some (first :: rest) => first :: rest
  | _ => match Hex.decode text with
    | some (first :: rest) => first :: rest
    | _ => text.toUTF8.toList

/-- The bytes of a value, none when it is unset or not a spelling of a key. -/
def normalize? : Value → Option (List UInt8)
  | .bytes octets => if octets.isEmpty then none else some octets
  | .list items => ofList items
  | .text string => if string.isEmpty then none else some (ofText string)
  | _ => none

/-- Whether a value has a shape in which keys are spelt. -/
def isSpelling : Value → Bool
  | .text _ | .bytes _ | .list _ => true
  | _ => false

end RadioAdmin.KeyMaterial
