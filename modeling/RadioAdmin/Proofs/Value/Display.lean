import RadioAdmin.Proofs.Value.Json

/-!
# The texts of maps

The text of a map opens with a brace and grows with every field, so it is never the text of a
flag, of a list or of the same map with more fields.
-/
namespace RadioAdmin

theorem Json.printFields_append (fields others : List (String × Json)) :
    printFields (fields ++ others) = printFields fields ++ printFields others := by
  induction fields with
  | nil => rfl
  | cons field rest ih => rw [List.cons_append, printFields, printFields, ih, List.cons_append]

namespace Value

/-- The text of a map between its braces. -/
def fieldsText (fields : List (String × Value)) : String :=
  ",".intercalate (Json.printFields (fieldsToJson fields))

theorem display_map (fields : List (String × Value)) :
    (Value.map fields).display = "\x7b" ++ fieldsText fields ++ "\x7d" := rfl

/-- What follows in a map is set off by a comma. -/
theorem fieldsText_append {fields others : List (String × Value)} (hset : fields ≠ [])
    (hmore : others ≠ []) :
    fieldsText (fields ++ others) = fieldsText fields ++ "," ++ fieldsText others := by
  have hprinted : ∀ {entries : List (String × Value)}, entries ≠ [] →
      Json.printFields (fieldsToJson entries) ≠ [] := by
    rintro (_ | ⟨⟨key, content⟩, rest⟩) h
    · exact absurd rfl h
    · exact List.cons_ne_nil _ _
  have happend : fieldsToJson (fields ++ others) = fieldsToJson fields ++ fieldsToJson others := by
    simp only [fieldsToJson_eq_map, List.map_append]
  rw [fieldsText, happend, Json.printFields_append,
    String.intercalate_append_of_ne_nil (hprinted hset) (hprinted hmore)]
  rfl

theorem display_map_append_ne {fields others : List (String × Value)} (hset : fields ≠ [])
    (hmore : others ≠ []) :
    (Value.map fields).display ≠ (Value.map (fields ++ others)).display := by
  intro h
  rw [display_map, display_map, fieldsText_append hset hmore] at h
  have hlength := congrArg String.length h
  simp only [String.length_append] at hlength
  have hcomma : ",".length = 1 := rfl
  omega

theorem display_map_head (fields : List (String × Value)) :
    (Value.map fields).display.toList.head? = some '\x7b' := by
  rw [display_map, String.append_assoc, String.toList_append]
  rfl

theorem display_list_ne_map (items : List Value) (fields : List (String × Value)) :
    (Value.list items).display ≠ (Value.map fields).display := by
  intro h
  have hhead := display_map_head fields
  have hlist : (Value.list items).display =
      "[" ++ ",".intercalate (Json.printItems (itemsToJson items)) ++ "]" := rfl
  rw [← h, hlist, String.append_assoc, String.toList_append] at hhead
  cases hhead

theorem display_bool_ne_map (flag : Bool) (fields : List (String × Value)) :
    (Value.bool flag).display ≠ (Value.map fields).display := by
  intro h
  have hhead := display_map_head fields
  rw [← h] at hhead
  cases flag <;> cases hhead

end Value

end RadioAdmin
