import RadioAdmin.Compare.Difference
import RadioAdmin.Json.Form

/-!
# Differences as JSON

A difference is stored as an object of all its fields, a side without a value as null. So
a side that holds null is not told apart from one without a value when it is read again.
-/
namespace RadioAdmin

/-- A value inside a document that may still nest `room` containers. -/
def RawJson.value? (room : Nat) (raw : RawJson) : Option Value := (raw.toJson room).map Value.ofJson

/-- A value or null for none. -/
def Json.ofValue? (value : Option Value) : Json := (value.map Value.toJson).getD .null

namespace Difference

def fieldNames : List String := ["field", "expected", "actual", "kind"]

def toJson (d : Difference) : Json :=
  .object [("field", .text d.field),
    ("expected", Json.ofValue? d.expected),
    ("actual", Json.ofValue? d.actual),
    ("kind", .text d.kind.name)]

def ofRaw (raw : RawJson) : Option Difference := do
  let record ← RawJson.record? fieldNames raw
  let value := RawJson.form.maybe (RawJson.value? (Json.nestingLimit - 1))
  return {
    field := ← record.required "field" RawJson.text?
    expected := ← record.optional "expected" value
    actual := ← record.optional "actual" value
    kind := ← record.required "kind" (RawJson.choice? DifferenceKind.all DifferenceKind.name) }

/-- The difference that a JSON text stores. -/
def parse (text : String) : Option Difference := (RawJson.read text).bind ofRaw

end Difference

end RadioAdmin
