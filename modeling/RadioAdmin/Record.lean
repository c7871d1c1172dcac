import RadioAdmin.Fields

/-!
# Records read from a document

A record with named fields may stand in a document as a map, or, in some formats, as a
list of its contents in the order of declaration. Unknown names in a map are passed over,
a known name that is given twice is an error, and what a missing field means is up to the
field. A `Form` says how one document format shows the few shapes that records use.
-/
namespace RadioAdmin

/-- The given fields of a record, and whether they were given by position. -/
structure Record (τ : Type) where
  byPosition : Bool
  fields : Fields τ

namespace Record

variable {τ α : Type}

/-- A record from a map; none when a known name is given twice. -/
def ofMap (known : List String) (pairs : List (String × τ)) : Option (Record τ) :=
  let given := pairs.filter fun pair => known.contains pair.1
  if (given.map Prod.fst).Nodup then some ⟨false, given⟩ else none

/-- A record from its contents in order; contents past the last field are not looked at. -/
def ofList (known : List String) (contents : List τ) : Record τ := ⟨true, known.zip contents⟩

/-- A field that has to be there. -/
def required (record : Record τ) (name : String) (read : τ → Option α) : Option α :=
  (Fields.get? record.fields name).bind read

/-- A field that a map may leave out. By position it has to be there. -/
def optional (record : Record τ) (name : String) (read : τ → Option (Option α)) :
    Option (Option α) :=
  match Fields.get? record.fields name with
  | some content => read content
  | none => if record.byPosition then none else some none

/-- A field with a value for its absence. -/
def withDefault (record : Record τ) (name : String) (default : α) (read : τ → Option α) :
    Option α :=
  match Fields.get? record.fields name with
  | some content => read content
  | none => some default

end Record

/-- How a document format shows texts, flags, numbers, lists and records. -/
structure Form (τ : Type) where
  text : τ → Option String
  flag : τ → Option Bool
  natural : τ → Option Nat
  list : τ → Option (List τ)
  record : List String → τ → Option (Record τ)
  /-- Whether something stands for the absence of a content; none when it is malformed. -/
  isAbsent : τ → Option Bool

/-- Read a content that may be marked as absent. -/
def Form.maybe {τ α : Type} (form : Form τ) (read : τ → Option α) (content : τ) :
    Option (Option α) :=
  (form.isAbsent content).bind fun absent => if absent then some none else (read content).map some

/-- A natural number below a limit. -/
def Form.below {τ : Type} (form : Form τ) (limit : Nat) (content : τ) : Option Nat :=
  (form.natural content).bind fun number => if number < limit then some number else none

end RadioAdmin
