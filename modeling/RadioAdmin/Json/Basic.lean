import RadioAdmin.Fields

/-!
# JSON values

The tree of a JSON text with its numbers split into integers and doubles. Objects keep
the order of their names.
-/
namespace RadioAdmin

inductive Json where
  | null
  | bool (value : Bool)
  | integer (value : Int)
  | float (value : Float)
  | text (value : String)
  | array (items : List Json)
  | object (fields : List (String × Json))

namespace Json

instance : Inhabited Json := ⟨.null⟩

mutual

/-- The greatest number of containers around a leaf, counting an empty container too. -/
def depth : Json → Nat
  | .array items => depthItems items + 1
  | .object fields => depthFields fields + 1
  | _ => 0

def depthItems : List Json → Nat
  | [] => 0
  | item :: rest => max (depth item) (depthItems rest)

def depthFields : List (String × Json) → Nat
  | [] => 0
  | (_, content) :: rest => max (depth content) (depthFields rest)

end

end Json

end RadioAdmin
