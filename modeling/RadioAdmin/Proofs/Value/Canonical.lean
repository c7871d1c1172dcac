import RadioAdmin.Proofs.Json.Printed
import RadioAdmin.Proofs.Value.Json

/-!
# The canonical form of a value

What comes back from the JSON of a value differs from it in leaves only, and a leaf differs when
JSON cannot hold it. The value that comes back is a canonical form: it comes back as itself, also
through the text, and a value is in this form when none of its leaves has to change. On the other
side every JSON value of signed words and finite doubles is the JSON of the value it is read as.
-/
namespace RadioAdmin

namespace Value

mutual

/-- All that is not a list or map in a value, from all depths and in order. -/
def leaves : Value → List Value
  | .list items => leavesOfItems items
  | .map fields => leavesOfFields fields
  | leaf => [leaf]

def leavesOfItems : List Value → List Value
  | [] => []
  | item :: rest => leaves item ++ leavesOfItems rest

def leavesOfFields : List (String × Value) → List Value
  | [] => []
  | (_, content) :: rest => leaves content ++ leavesOfFields rest

end

mutual

/-- Change the leaves of a value and keep its lists, its maps and their order. -/
def mapLeaves (change : Value → Value) : Value → Value
  | .list items => .list (mapLeavesOfItems change items)
  | .map fields => .map (mapLeavesOfFields change fields)
  | leaf => change leaf

def mapLeavesOfItems (change : Value → Value) : List Value → List Value
  | [] => []
  | item :: rest => mapLeaves change item :: mapLeavesOfItems change rest

def mapLeavesOfFields (change : Value → Value) : List (String × Value) → List (String × Value)
  | [] => []
  | (key, content) :: rest => (key, mapLeaves change content) :: mapLeavesOfFields change rest

end

/-- The leaf that JSON can hold in the place of a leaf: the base64 text for bytes, and null for a
double that is not finite. -/
def canonicalLeaf : Value → Value
  | .bytes octets => .text (Base64.encode octets)
  | .float number => if number.isFinite then .float number else .null
  | leaf => leaf

/-- A value with all its leaves as JSON can hold them. -/
def canonical (value : Value) : Value := mapLeaves canonicalLeaf value

theorem leaves_list (items : List Value) : leaves (.list items) = items.flatMap leaves := by
  rw [leaves]
  induction items with
  | nil => rfl
  | cons item rest ih => rw [leavesOfItems, ih, List.flatMap_cons]

theorem leaves_map (fields : List (String × Value)) :
    leaves (.map fields) = fields.flatMap fun entry => leaves entry.2 := by
  rw [leaves]
  induction fields with
  | nil => rfl
  | cons entry rest ih => rw [leavesOfFields, ih, List.flatMap_cons]

theorem mapLeaves_list (change : Value → Value) (items : List Value) :
    mapLeaves change (.list items) = .list (items.map (mapLeaves change)) := by
  rw [mapLeaves]
  induction items with
  | nil => rfl
  | cons item rest ih =>
    rw [mapLeavesOfItems, Value.list.inj ih]
    rfl

theorem mapLeaves_map (change : Value → Value) (fields : List (String × Value)) :
    mapLeaves change (.map fields) =
      .map (fields.map fun entry => (entry.1, mapLeaves change entry.2)) := by
  rw [mapLeaves]
  induction fields with
  | nil => rfl
  | cons entry rest ih =>
    rw [mapLeavesOfFields, Value.map.inj ih]
    rfl

theorem leaves_of_leaf {value : Value} (hlists : ∀ items, value ≠ .list items)
    (hmaps : ∀ fields, value ≠ .map fields) : leaves value = [value] := by
  cases value with
  | list items => exact absurd rfl (hlists items)
  | map fields => exact absurd rfl (hmaps fields)
  | _ => rfl

theorem mapLeaves_of_leaf {value : Value} (change : Value → Value)
    (hlists : ∀ items, value ≠ .list items) (hmaps : ∀ fields, value ≠ .map fields) :
    mapLeaves change value = change value := by
  cases value with
  | list items => exact absurd rfl (hlists items)
  | map fields => exact absurd rfl (hmaps fields)
  | _ => rfl

theorem map_eq_self_iff {α : Type} {change : α → α} {items : List α} :
    items.map change = items ↔ ∀ item ∈ items, change item = item := by
  have h := List.map_inj_left (l := items) (f := change) (g := id)
  rwa [List.map_id] at h

/-- What changes no leaf of a value changes nothing, and else it does. -/
theorem mapLeaves_eq_self_iff (change : Value → Value) (value : Value) :
    mapLeaves change value = value ↔ ∀ leaf ∈ value.leaves, change leaf = leaf := by
  induction value using members_induction with
  | leaf value hlists hmaps =>
    rw [mapLeaves_of_leaf change hlists hmaps, leaves_of_leaf hlists hmaps]
    exact List.forall_mem_singleton (p := fun leaf => change leaf = leaf) |>.symm
  | list items ih =>
    rw [mapLeaves_list, leaves_list, Value.list.injEq, map_eq_self_iff, List.forall_mem_flatMap]
    exact forall₂_congr ih
  | map fields ih =>
    have hentry (entry : String × Value) :
        (entry.1, mapLeaves change entry.2) = entry ↔ mapLeaves change entry.2 = entry.2 := by
      rw [Prod.ext_iff]
      exact and_iff_right rfl
    rw [mapLeaves_map, leaves_map, Value.map.injEq, map_eq_self_iff, List.forall_mem_flatMap]
    exact forall₂_congr fun entry h => (hentry entry).trans (ih entry h)

/-- A leaf stays as it is unless it is bytes or a double that is not finite. -/
theorem canonicalLeaf_eq_self_iff (leaf : Value) :
    canonicalLeaf leaf = leaf ↔
      (∀ octets, leaf ≠ .bytes octets) ∧ ∀ x, leaf = .float x → x.isFinite = true := by
  cases leaf with
  | float x =>
    by_cases h : x.isFinite = true
    · have hsame : canonicalLeaf (.float x) = .float x := if_pos h
      refine iff_of_true hsame ⟨fun _ hx => (by cases hx), ?_⟩
      rintro y hy
      rw [← Value.float.inj hy]
      exact h
    · have hnull : canonicalLeaf (.float x) = .null := if_neg h
      rw [hnull]
      exact iff_of_false (fun hx => by cases hx) fun hx => h (hx.2 x rfl)
  | bytes octets => exact iff_of_false (fun h => by cases h) fun h => h.1 octets rfl
  | _ => exact iff_of_true rfl ⟨fun _ h => (by cases h), fun _ h => (by cases h)⟩

theorem canonical_eq_self_iff (value : Value) :
    value.canonical = value ↔
      (∀ octets, Value.bytes octets ∉ value.leaves) ∧
        ∀ x, Value.float x ∈ value.leaves → x.isFinite = true := by
  rw [canonical, mapLeaves_eq_self_iff]
  simp only [canonicalLeaf_eq_self_iff]
  constructor
  · intro h
    exact ⟨fun octets hmem => (h _ hmem).1 octets rfl, fun x hmem => (h _ hmem).2 x rfl⟩
  · rintro ⟨hbytes, hfloats⟩ leaf hmem
    refine ⟨?_, ?_⟩
    · rintro octets rfl
      exact hbytes octets hmem
    · rintro x rfl
      exact hfloats x hmem

/-- A leaf is written as the leaf that takes its place, and is read as that. -/
theorem ofJson_toJson_canonicalLeaf {leaf : Value} (hlists : ∀ items, leaf ≠ .list items)
    (hmaps : ∀ fields, leaf ≠ .map fields) : ofJson leaf.toJson = canonicalLeaf leaf := by
  cases leaf with
  | list items => exact absurd rfl (hlists items)
  | map fields => exact absurd rfl (hmaps fields)
  | int n => exact ofInteger_toInt n
  | float x =>
    rw [toJson, canonicalLeaf]
    split
    · rfl
    · rfl
  | _ => rfl

/-- What comes back from the JSON of a value is its canonical form. -/
theorem ofJson_toJson (value : Value) : ofJson value.toJson = value.canonical := by
  rw [canonical]
  induction value using members_induction with
  | leaf value hlists hmaps =>
    rw [ofJson_toJson_canonicalLeaf hlists hmaps, mapLeaves_of_leaf _ hlists hmaps]
  | list items ih =>
    rw [ofJson_toJson_list, mapLeaves_list]
    exact congrArg Value.list (List.map_congr_left ih)
  | map fields ih =>
    rw [ofJson_toJson_map, mapLeaves_map]
    refine congrArg Value.map (List.map_congr_left fun entry hentry => ?_)
    exact congrArg (Prod.mk entry.1) (ih entry hentry)

theorem toJson_canonical (value : Value) : value.canonical.toJson = value.toJson := by
  rw [← ofJson_toJson, toJson_ofJson_toJson]

theorem canonical_canonical (value : Value) : value.canonical.canonical = value.canonical := by
  rw [← ofJson_toJson value.canonical, toJson_canonical, ofJson_toJson]

/-- A text can carry the JSON of a value when it can carry its finite doubles. -/
theorem faithful_toJson {value : Value} (hw : value.WellFormed)
    (hfloats : ∀ x, Value.float x ∈ value.leaves → x.isFinite = true → Json.ReadsBack x) :
    value.toJson.Faithful := by
  induction value using members_induction with
  | leaf value hlists hmaps =>
    cases value with
    | list items => exact absurd rfl (hlists items)
    | map fields => exact absurd rfl (hmaps fields)
    | int n =>
      have hlow : Int64.minValue.toInt ≤ n.toInt := Int64.minValue_le_toInt n
      have hhigh : n.toInt ≤ Int64.maxValue.toInt := Int64.toInt_le n
      have hword : Int64.maxValue.toInt < UInt64.size := by decide
      exact ⟨hlow, Int.lt_of_le_of_lt hhigh hword⟩
    | float x =>
      rw [toJson]
      split
      · exact hfloats x (List.mem_singleton.mpr rfl) ‹_›
      · trivial
    | _ => trivial
  | list items ih =>
    rw [WellFormed, wellFormedItems_iff] at hw
    rw [leaves_list] at hfloats
    rw [toJson_list, Json.faithful_array, List.forall_mem_map]
    refine fun item hitem => ih item hitem (hw item hitem) fun x hx => ?_
    exact hfloats x (List.mem_flatMap.mpr ⟨item, hitem, hx⟩)
  | map fields ih =>
    rw [WellFormed, wellFormedFields_iff] at hw
    rw [leaves_map] at hfloats
    rw [toJson_map, Json.faithful_object, List.forall_mem_map]
    refine ⟨?_, fun entry hentry => ih entry hentry (hw.2 entry hentry) fun x hx => ?_⟩
    · rw [Fields.Distinct, Fields.names, List.map_map]
      exact hw.1
    · exact hfloats x (List.mem_flatMap.mpr ⟨entry, hentry, hx⟩)

/-- The text of a value is read as the canonical form of the value. -/
theorem map_ofJson_parse_jsonText {value : Value} (hw : value.WellFormed)
    (hdepth : value.toJson.depth < 128)
    (hfloats : ∀ x, Value.float x ∈ value.leaves → x.isFinite = true → Json.ReadsBack x) :
    (Json.parse value.jsonText).map ofJson = some value.canonical := by
  have hfaithful := faithful_toJson hw hfloats
  have hroom : value.toJson.depth ≤ Json.nestingLimit := Nat.le_of_lt_succ hdepth
  rw [jsonText, Json.parse_print hfaithful hroom, Option.map_some, ofJson_toJson]

end Value

namespace Json

mutual

/-- All that is not an array or object in a value, from all depths and in order. -/
def leaves : Json → List Json
  | .array items => leavesOfItems items
  | .object fields => leavesOfFields fields
  | leaf => [leaf]

def leavesOfItems : List Json → List Json
  | [] => []
  | item :: rest => leaves item ++ leavesOfItems rest

def leavesOfFields : List (String × Json) → List Json
  | [] => []
  | (_, content) :: rest => leaves content ++ leavesOfFields rest

end

theorem leaves_array (items : List Json) : leaves (.array items) = items.flatMap leaves := by
  rw [leaves]
  induction items with
  | nil => rfl
  | cons item rest ih => rw [leavesOfItems, ih, List.flatMap_cons]

theorem leaves_object (fields : List (String × Json)) :
    leaves (.object fields) = fields.flatMap fun field => leaves field.2 := by
  rw [leaves]
  induction fields with
  | nil => rfl
  | cons field rest ih => rw [leavesOfFields, ih, List.flatMap_cons]

end Json

namespace Value

theorem toJson_ofInteger {n : Int} (hlow : Int64.minValue.toInt ≤ n)
    (hhigh : n ≤ Int64.maxValue.toInt) : (ofInteger n).toJson = .integer n := by
  rw [ofInteger, if_pos ⟨hlow, hhigh⟩, toJson,
    Int64.toInt_ofInt_of_le hlow (Int.lt_of_le_of_lt hhigh (by decide))]

/-- JSON of signed words and finite doubles is the JSON of the value it is read as. -/
theorem toJson_ofJson {json : Json}
    (hintegers : ∀ n, Json.integer n ∈ json.leaves →
      Int64.minValue.toInt ≤ n ∧ n ≤ Int64.maxValue.toInt)
    (hfloats : ∀ x, Json.float x ∈ json.leaves → x.isFinite = true) :
    (ofJson json).toJson = json := by
  induction json using Json.members_induction with
  | leaf json harrays hobjects =>
    cases json with
    | array items => exact absurd rfl (harrays items)
    | object fields => exact absurd rfl (hobjects fields)
    | integer n =>
      obtain ⟨hlow, hhigh⟩ := hintegers n (List.mem_singleton.mpr rfl)
      exact toJson_ofInteger hlow hhigh
    | float x => exact if_pos (hfloats x (List.mem_singleton.mpr rfl))
    | _ => rfl
  | array items ih =>
    rw [Json.leaves_array] at hintegers hfloats
    have hitems : ∀ item ∈ items, (ofJson item).toJson = item := fun item hitem =>
      ih item hitem (fun n hn => hintegers n (List.mem_flatMap.mpr ⟨item, hitem, hn⟩))
        fun x hx => hfloats x (List.mem_flatMap.mpr ⟨item, hitem, hx⟩)
    rw [ofJson_array, toJson_list, List.map_map]
    exact congrArg Json.array (map_eq_self_iff.mpr hitems)
  | object fields ih =>
    rw [Json.leaves_object] at hintegers hfloats
    have hfields : ∀ field ∈ fields, (field.1, (ofJson field.2).toJson) = field :=
      fun field hfield => congrArg (Prod.mk field.1)
        (ih field hfield (fun n hn => hintegers n (List.mem_flatMap.mpr ⟨field, hfield, hn⟩))
          fun x hx => hfloats x (List.mem_flatMap.mpr ⟨field, hfield, hx⟩))
    rw [ofJson_object, toJson_map, List.map_map]
    exact congrArg Json.object (map_eq_self_iff.mpr hfields)

/-- What comes back from the JSON of a value, or from its text, is the value with bytes as base64
text and null for doubles that are not finite. It comes back as itself, and a value is that form of
itself exactly when it has no such leaves. JSON of signed words and finite doubles comes back from
the value it is read as. -/
theorem json_canonical :
    (∀ value : Value, ofJson value.toJson = value.canonical) ∧
    (∀ value : Value, value.WellFormed → value.toJson.depth < 128 →
      (∀ x, Value.float x ∈ value.leaves → x.isFinite = true → Json.ReadsBack x) →
      (Json.parse value.jsonText).map ofJson = some value.canonical) ∧
    (∀ value : Value, ofJson value.canonical.toJson = value.canonical) ∧
    (∀ value : Value, value.canonical = value ↔
      (∀ octets, Value.bytes octets ∉ value.leaves) ∧
        ∀ x, Value.float x ∈ value.leaves → x.isFinite = true) ∧
    ∀ json : Json,
      (∀ n, Json.integer n ∈ json.leaves →
      Int64.minValue.toInt ≤ n ∧ n ≤ Int64.maxValue.toInt) →
      (∀ x, Json.float x ∈ json.leaves → x.isFinite = true) → (ofJson json).toJson = json := by
  refine ⟨ofJson_toJson, fun value hw hdepth hfloats => ?_, fun value => ?_, canonical_eq_self_iff,
    fun json hintegers hfloats => ?_⟩
  · exact map_ofJson_parse_jsonText hw hdepth hfloats
  · rw [ofJson_toJson, canonical_canonical]
  · exact toJson_ofJson hintegers hfloats

/-- Bytes and an infinite double change within a list in a map; a double, a negative integer and
the keys stay. -/
theorem json_canonical_nested :
    let value : Value := .map [("psk", .bytes [1]),
      ("gains", .list [.float 0.5, .float (1.0 / 0.0), .int (-3)])]
    let back : Value := .map [("psk", .text "AQ=="),
      ("gains", .list [.float 0.5, .null, .int (-3)])]
    (value.WellFormed ∧ value.toJson.depth < 128 ∧ Json.ReadsBack 0.5) ∧
      ofJson value.toJson = back ∧ (Json.parse value.jsonText).map ofJson = some back ∧
      ofJson back.toJson = back ∧ value ≠ back ∧ (ofJson back.toJson).toJson = back.toJson := by
  intro value back
  have hw : value.WellFormed := by
    simp [value, WellFormed, WellFormedFields, WellFormedItems, Fields.Distinct, Fields.names]
  have hhalf : Json.ReadsBack 0.5 := rfl
  have hinfinite : (1.0 / 0.0 : Float).isFinite = false := by decide +kernel
  have hfinite : (0.5 : Float).isFinite = true := by decide +kernel
  have hback : value.canonical = back := rfl
  have hdepth : value.toJson.depth < 128 := by
    have hlevels : value.toJson.depth = 2 := rfl
    omega
  have hleaves : value.leaves =
      [.bytes [1], .float 0.5, .float (1.0 / 0.0), .int (-3)] := rfl
  have hjsonLeaves : back.toJson.leaves = [.text "AQ==", .float 0.5, .null, .integer (-3)] := rfl
  have hfloats : ∀ x, Value.float x ∈ value.leaves → x.isFinite = true → Json.ReadsBack x := by
    intro x hx hxfinite
    simp only [hleaves, List.mem_cons, Value.float.injEq, reduceCtorEq, false_or, or_false,
      List.not_mem_nil] at hx
    rcases hx with rfl | rfl
    · exact hhalf
    · rw [hinfinite] at hxfinite
      cases hxfinite
  have hsigned : ∀ n, Json.integer n ∈ back.toJson.leaves →
      Int64.minValue.toInt ≤ n ∧ n ≤ Int64.maxValue.toInt := by
    intro n hn
    simp only [hjsonLeaves, List.mem_cons, Json.integer.injEq, reduceCtorEq, false_or, or_false,
      List.not_mem_nil] at hn
    rw [hn]
    decide
  have hdoubles : ∀ x, Json.float x ∈ back.toJson.leaves → x.isFinite = true := by
    intro x hx
    simp only [hjsonLeaves, List.mem_cons, Json.float.injEq, reduceCtorEq, false_or, or_false,
      List.not_mem_nil] at hx
    rw [hx]
    exact hfinite
  obtain ⟨hread, htext, hagain, hself, hjson⟩ := json_canonical
  have hchanged : value ≠ back := by
    intro hsame
    have hbytes := ((hself value).mp (hback.trans hsame.symm)).1 [1]
    rw [hleaves] at hbytes
    exact hbytes List.mem_cons_self
  rw [← hback] at hsigned hdoubles hchanged ⊢
  exact ⟨⟨hw, hdepth, hhalf⟩, hread value, htext value hw hdepth hfloats, hagain value, hchanged,
    hjson _ hsigned hdoubles⟩

end Value

end RadioAdmin
