import RadioAdmin.Proofs.Encoding.Base64
import RadioAdmin.Proofs.Value.Basic
import RadioAdmin.Value.Json

/-!
# Values that are written as JSON and read back

Bytes come back as their base64 text and a double that is not finite as null; everything else
comes back as it was. What has come back is written as the same JSON again.
-/
namespace RadioAdmin.Value

theorem itemsToJson_eq_map (items : List Value) : itemsToJson items = items.map toJson := by
  induction items with
  | nil => rfl
  | cons item rest ih => exact congrArg (toJson item :: ·) ih

theorem fieldsToJson_eq_map (fields : List (String × Value)) :
    fieldsToJson fields = fields.map fun entry => (entry.1, toJson entry.2) := by
  induction fields with
  | nil => rfl
  | cons entry rest ih => exact congrArg ((entry.1, toJson entry.2) :: ·) ih

theorem itemsOfJson_eq_map (items : List Json) : itemsOfJson items = items.map ofJson := by
  induction items with
  | nil => rfl
  | cons item rest ih => exact congrArg (ofJson item :: ·) ih

theorem fieldsOfJson_eq_map (fields : List (String × Json)) :
    fieldsOfJson fields = fields.map fun entry => (entry.1, ofJson entry.2) := by
  induction fields with
  | nil => rfl
  | cons entry rest ih => exact congrArg ((entry.1, ofJson entry.2) :: ·) ih

/-- A list is written element by element. -/
theorem toJson_list (items : List Value) : toJson (.list items) = .array (items.map toJson) :=
  congrArg Json.array (itemsToJson_eq_map items)

/-- A map is written entry by entry. -/
theorem toJson_map (fields : List (String × Value)) :
    toJson (.map fields) = .object (fields.map fun entry => (entry.1, toJson entry.2)) :=
  congrArg Json.object (fieldsToJson_eq_map fields)

theorem ofJson_array (items : List Json) : ofJson (.array items) = .list (items.map ofJson) :=
  congrArg Value.list (itemsOfJson_eq_map items)

theorem ofJson_object (fields : List (String × Json)) :
    ofJson (.object fields) = .map (fields.map fun entry => (entry.1, ofJson entry.2)) :=
  congrArg Value.map (fieldsOfJson_eq_map fields)

theorem ofInteger_toInt (number : Int64) : ofInteger number.toInt = .int number := by
  have hlow : Int64.minValue.toInt ≤ number.toInt := Int64.minValue_le_toInt number
  have hhigh : number.toInt ≤ Int64.maxValue.toInt := Int64.toInt_le number
  rw [ofInteger, if_pos ⟨hlow, hhigh⟩, Int64.ofInt_toInt]

theorem ofJson_toJson_list (items : List Value) :
    ofJson (toJson (.list items)) = .list (items.map fun item => ofJson (toJson item)) := by
  rw [toJson_list, ofJson_array, List.map_map]
  rfl

theorem ofJson_toJson_map (fields : List (String × Value)) :
    ofJson (toJson (.map fields)) =
      .map (fields.map fun entry => (entry.1, ofJson (toJson entry.2))) := by
  rw [toJson_map, ofJson_object, List.map_map]
  rfl

/-- A leaf comes back as it was, unless it is bytes or an infinite double. -/
theorem ofJson_toJson_leaf {value : Value} (hlists : ∀ items, value ≠ .list items)
    (hmaps : ∀ fields, value ≠ .map fields) :
    (AllFinite value ∧ value.WellFormed ∧ ofJson value.toJson = value) ∨
    (∃ octets, value = .bytes octets ∧ ofJson value.toJson = .text (Base64.encode octets)) ∨
    (¬ AllFinite value ∧ value.toJson = .null) := by
  cases value with
  | list items => exact absurd rfl (hlists items)
  | map fields => exact absurd rfl (hmaps fields)
  | int number => exact Or.inl ⟨trivial, trivial, ofInteger_toInt number⟩
  | float number =>
    by_cases hfinite : number.isFinite = true
    · have hnumber : toJson (.float number) = .float number := if_pos hfinite
      exact Or.inl ⟨hfinite, trivial, congrArg ofJson hnumber⟩
    · exact Or.inr (Or.inr ⟨hfinite, if_neg hfinite⟩)
  | bytes octets => exact Or.inr (Or.inl ⟨octets, rfl, rfl⟩)
  | _ => exact Or.inl ⟨trivial, trivial, rfl⟩

/-- What has been read back is written as before. -/
theorem toJson_ofJson_toJson (value : Value) : (ofJson value.toJson).toJson = value.toJson := by
  induction value using members_induction with
  | leaf value hlists hmaps =>
    rcases ofJson_toJson_leaf hlists hmaps with ⟨-, -, hself⟩ | ⟨octets, rfl, htext⟩ | ⟨-, hnull⟩
    · rw [hself]
    · rw [htext]
      rfl
    · rw [hnull]
      rfl
  | list items ih =>
    rw [ofJson_toJson_list, toJson_list, List.map_map, toJson_list]
    exact congrArg Json.array (List.map_congr_left ih)
  | map fields ih =>
    rw [ofJson_toJson_map, toJson_map, List.map_map, toJson_map]
    refine congrArg Json.object (List.map_congr_left fun entry hentry => ?_)
    exact congrArg (Prod.mk entry.1) (ih entry hentry)

/-- No infinite double comes back. -/
theorem allFinite_ofJson_toJson (value : Value) : AllFinite (ofJson value.toJson) := by
  induction value using members_induction with
  | leaf value hlists hmaps =>
    rcases ofJson_toJson_leaf hlists hmaps with ⟨hfinite, -, hself⟩ | ⟨octets, -, htext⟩ |
      ⟨-, hnull⟩
    · rw [hself]
      exact hfinite
    · rw [htext]
      trivial
    · rw [hnull]
      trivial
  | list items ih =>
    rw [ofJson_toJson_list, AllFinite, allFiniteItems_iff]
    exact List.forall_mem_map.mpr ih
  | map fields ih =>
    rw [ofJson_toJson_map, AllFinite, allFiniteFields_iff]
    exact List.forall_mem_map.mpr ih

theorem wellFormed_ofJson_toJson {value : Value} (h : value.WellFormed) :
    WellFormed (ofJson value.toJson) := by
  induction value using members_induction with
  | leaf value hlists hmaps =>
    rcases ofJson_toJson_leaf hlists hmaps with ⟨-, hw, hself⟩ | ⟨octets, -, htext⟩ | ⟨-, hnull⟩
    · rw [hself]
      exact hw
    · rw [htext]
      trivial
    · rw [hnull]
      trivial
  | list items ih =>
    rw [WellFormed, wellFormedItems_iff] at h
    rw [ofJson_toJson_list, WellFormed, wellFormedItems_iff]
    exact List.forall_mem_map.mpr fun item hitem => ih item hitem (h item hitem)
  | map fields ih =>
    rw [WellFormed, wellFormedFields_iff] at h
    rw [ofJson_toJson_map, WellFormed, wellFormedFields_iff]
    refine ⟨?_, List.forall_mem_map.mpr fun entry hentry => ih entry hentry (h.2 entry hentry)⟩
    rw [Fields.Distinct, Fields.names, List.map_map]
    exact h.1

/-- A finite leaf comes back as it was, or as the text of its bytes. -/
theorem ofJson_toJson_finite {value : Value} (hfinite : AllFinite value)
    (hlists : ∀ items, value ≠ .list items) (hmaps : ∀ fields, value ≠ .map fields) :
    ofJson value.toJson = value ∨
      ∃ octets, value = .bytes octets ∧ ofJson value.toJson = .text (Base64.encode octets) := by
  rcases ofJson_toJson_leaf hlists hmaps with ⟨-, -, hself⟩ | htext | ⟨hnot, -⟩
  · exact Or.inl hself
  · exact Or.inr htext
  · exact absurd hfinite hnot

/-- Finite leaves that are written alike are equal, or bytes and their base64 text. -/
theorem leaf_cases_of_toJson {a b : Value} (h : a.toJson = b.toJson) (ha : AllFinite a)
    (hb : AllFinite b) (hlists : ∀ items, a ≠ .list items) (hmaps : ∀ fields, a ≠ .map fields) :
    a = b ∨ (∃ octets, a = .bytes octets ∧ b = .text (Base64.encode octets)) ∨
      ∃ octets, a = .text (Base64.encode octets) ∧ b = .bytes octets := by
  have hread := congrArg ofJson h
  have hleft := ofJson_toJson_finite ha hlists hmaps
  -- A list or map would come back as one, and the left side does not.
  have hlists' : ∀ items, b ≠ .list items := by
    rintro items rfl
    rw [ofJson_toJson_list] at hread
    rcases hleft with hself | ⟨octets, -, htext⟩
    · exact hlists _ (hself.symm.trans hread)
    · rw [htext] at hread
      cases hread
  have hmaps' : ∀ fields, b ≠ .map fields := by
    rintro fields rfl
    rw [ofJson_toJson_map] at hread
    rcases hleft with hself | ⟨octets, -, htext⟩
    · exact hmaps _ (hself.symm.trans hread)
    · rw [htext] at hread
      cases hread
  rcases hleft with hself | ⟨octets, rfl, htext⟩ <;>
    rcases ofJson_toJson_finite hb hlists' hmaps' with hother | ⟨others, rfl, hothers⟩
  · exact Or.inl (hself.symm.trans (hread.trans hother))
  · exact Or.inr (Or.inr ⟨others, hself.symm.trans (hread.trans hothers), rfl⟩)
  · exact Or.inr (Or.inl ⟨octets, rfl, hother.symm.trans (hread.symm.trans htext)⟩)
  · have hencode : Value.text (Base64.encode octets) = .text (Base64.encode others) :=
      htext.symm.trans (hread.trans hothers)
    exact Or.inl (congrArg Value.bytes (Base64.encode_injective (Value.text.inj hencode)))

theorem toJson_float_cases (number : Float) :
    toJson (.float number) = .float number ∨ toJson (.float number) = .null := by
  by_cases hfinite : number.isFinite = true
  · exact Or.inl (if_pos hfinite)
  · exact Or.inr (if_neg hfinite)

theorem exists_list_of_toJson {items : List Value} {b : Value}
    (h : toJson (.list items) = b.toJson) :
    ∃ others, b = .list others ∧ List.Forall₂ (fun x y => toJson x = toJson y) items others := by
  cases b with
  | list others =>
    rw [toJson_list, toJson_list] at h
    have hmap := Json.array.inj h
    rw [← List.forall₂_eq_eq_eq, List.forall₂_map_left_iff, List.forall₂_map_right_iff] at hmap
    exact ⟨others, rfl, hmap⟩
  | float number =>
    rcases toJson_float_cases number with hnumber | hnumber
    · rw [hnumber] at h
      cases h
    · rw [hnumber] at h
      cases h
  | _ => cases h

theorem exists_map_of_toJson {fields : List (String × Value)} {b : Value}
    (h : toJson (.map fields) = b.toJson) :
    ∃ others, b = .map others ∧
      List.Forall₂ (fun x y => x.1 = y.1 ∧ toJson x.2 = toJson y.2) fields others := by
  cases b with
  | map others =>
    rw [toJson_map, toJson_map] at h
    have hmap := Json.object.inj h
    rw [← List.forall₂_eq_eq_eq, List.forall₂_map_left_iff, List.forall₂_map_right_iff] at hmap
    exact ⟨others, rfl, hmap.imp fun _ _ he => Prod.mk.inj he⟩
  | float number =>
    rcases toJson_float_cases number with hnumber | hnumber
    · rw [hnumber] at h
      cases h
    · rw [hnumber] at h
      cases h
  | _ => cases h

end RadioAdmin.Value
