import RadioAdmin.Json.Printer

/-!
# Induction over JSON values

What is defined over a value and over the lists of its members at once is said again over the
values alone: the text, the depth, and all that follows by induction.
-/
namespace RadioAdmin.Json

/-- Induction over a value with a hypothesis for each member of an array or object. -/
theorem members_induction {motive : Json → Prop}
    (leaf : ∀ value, (∀ items, value ≠ .array items) → (∀ fields, value ≠ .object fields) →
      motive value)
    (array : ∀ items, (∀ item ∈ items, motive item) → motive (.array items))
    (object : ∀ fields, (∀ field ∈ fields, motive field.2) → motive (.object fields))
    (value : Json) : motive value :=
  match value with
  | .array items => array items fun item _ => members_induction leaf array object item
  | .object fields => object fields fun field _ => members_induction leaf array object field.2
  | .null | .bool _ | .integer _ | .float _ | .text _ =>
    leaf _ (fun _ h => by cases h) (fun _ h => by cases h)
termination_by sizeOf value
decreasing_by
  · have h := List.sizeOf_lt_of_mem ‹item ∈ items›
    simp only [Json.array.sizeOf_spec]
    omega
  · have h := List.sizeOf_lt_of_mem ‹field ∈ fields›
    obtain ⟨name, content⟩ := field
    simp only [Json.object.sizeOf_spec, Prod.mk.sizeOf_spec] at h ⊢
    omega

variable {items : List Json} {fields : List (String × Json)} {room : Nat}

theorem printItems_eq_map (items : List Json) : printItems items = items.map print := by
  induction items with
  | nil => rfl
  | cons item rest ih => rw [printItems, ih, List.map_cons]

theorem printFields_eq_map (fields : List (String × Json)) :
    printFields fields = fields.map fun field => printText field.1 ++ ":" ++ print field.2 := by
  induction fields with
  | nil => rfl
  | cons field rest ih => rw [printFields, ih, List.map_cons]

theorem toList_print_array (items : List Json) :
    (print (.array items)).toList =
      '[' :: ([','].intercalate (items.map fun item => (print item).toList) ++ [']']) := by
  rw [print, printItems_eq_map, String.toList_append, String.toList_append,
    String.toList_intercalate, List.map_map]
  rfl

theorem toList_print_object (fields : List (String × Json)) :
    (print (.object fields)).toList =
      '\x7b' :: ([','].intercalate (fields.map fun field =>
        (printText field.1).toList ++ ':' :: (print field.2).toList) ++ ['\x7d']) := by
  have hfield (field : String × Json) : (printText field.1 ++ ":" ++ print field.2).toList =
      (printText field.1).toList ++ ':' :: (print field.2).toList := by
    rw [String.toList_append, String.toList_append, List.append_assoc]
    rfl
  rw [print, printFields_eq_map, String.toList_append, String.toList_append,
    String.toList_intercalate, List.map_map, ← List.map_congr_left fun field _ => hfield field]
  rfl

theorem depthItems_le_iff : depthItems items ≤ room ↔ ∀ item ∈ items, depth item ≤ room := by
  induction items with
  | nil => simp [depthItems]
  | cons item rest ih => rw [depthItems, Nat.max_le, ih, List.forall_mem_cons]

theorem depthFields_le_iff :
    depthFields fields ≤ room ↔ ∀ field ∈ fields, depth field.2 ≤ room := by
  induction fields with
  | nil => simp [depthFields]
  | cons field rest ih => rw [depthFields, Nat.max_le, ih, List.forall_mem_cons]

end RadioAdmin.Json
