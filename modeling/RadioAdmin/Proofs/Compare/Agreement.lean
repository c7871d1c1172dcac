import Mathlib.Data.List.Forall2
import RadioAdmin.Compare.Agreement
import RadioAdmin.Proofs.FieldPath

/-!
# Agreement by the shapes of the two sides

What is unset on one side decides by the other side; two maps compare by their fields and
two lists as a whole; everything else is a pair of leaves.
-/
namespace RadioAdmin.Compare

open KeyMaterial (isKeyField)

private theorem valuesAgree_eq (expected actual : Value) (field : String) (flag : Bool) :
    valuesAgree expected actual field flag =
      if expected.isEmpty || actual.isEmpty then expected.isEmpty && actual.isEmpty
      else match expected, actual with
        | .map a, .map b => (compareFields a b "").isEmpty
        | .list a, .list b => (compareLists a b field).isNone
        | expected, actual => leavesAgree expected actual (flag || isKeyField field) := by
  rw [valuesAgree.eq_def]
  rfl

theorem valuesAgree_unset {expected actual : Value} (field : String) (flag : Bool)
    (h : expected.isEmpty = true ∨ actual.isEmpty = true) :
    valuesAgree expected actual field flag = (expected.isEmpty && actual.isEmpty) := by
  rw [valuesAgree_eq, if_pos (by simpa using h)]

theorem valuesAgree_maps {a b : List (String × Value)} (field : String) (flag : Bool)
    (ha : a ≠ []) (hb : b ≠ []) :
    valuesAgree (.map a) (.map b) field flag = (compareFields a b "").isEmpty := by
  rw [valuesAgree_eq, if_neg (by simp [Value.isEmpty, ha, hb])]

theorem valuesAgree_lists {a b : List Value} (field : String) (flag : Bool)
    (ha : a ≠ []) (hb : b ≠ []) :
    valuesAgree (.list a) (.list b) field flag = (compareLists a b field).isNone := by
  rw [valuesAgree_eq, if_neg (by simp [Value.isEmpty, ha, hb])]

/-- Set values that are not both maps and not both lists meet as leaves. -/
theorem valuesAgree_mixed {expected actual : Value} (field : String) (flag : Bool)
    (he : expected.isEmpty = false) (ha : actual.isEmpty = false)
    (hmaps : ∀ a b, expected = .map a → actual ≠ .map b)
    (hlists : ∀ a b, expected = .list a → actual ≠ .list b) :
    valuesAgree expected actual field flag =
      leavesAgree expected actual (flag || isKeyField field) := by
  rw [valuesAgree_eq, if_neg (by simp [he, ha])]
  split
  · exact absurd rfl (hmaps _ _ rfl)
  · exact absurd rfl (hlists _ _ rfl)
  · rfl

/-- A set value that holds no others meets any set value as a leaf. -/
theorem valuesAgree_leaf {expected actual : Value} (field : String) (flag : Bool)
    (he : expected.isEmpty = false) (ha : actual.isEmpty = false)
    (hleaf : isContainer expected = false) :
    valuesAgree expected actual field flag =
      leavesAgree expected actual (flag || isKeyField field) := by
  refine valuesAgree_mixed field flag he ha ?_ ?_
  · rintro a b rfl -
    cases hleaf
  · rintro a b rfl -
    cases hleaf

/-- In a key field two set values agree exactly when they spell the same key. -/
theorem valuesAgree_spelling {expected actual : Value} {field : String} (flag : Bool)
    (hfield : isKeyField field = true) (he : expected.isEmpty = false)
    (ha : actual.isEmpty = false) (hleaf : isContainer expected = false)
    (hspelling : KeyMaterial.isSpelling expected = true ∨ KeyMaterial.isSpelling actual = true) :
    valuesAgree expected actual field flag =
      (KeyMaterial.normalize? expected == KeyMaterial.normalize? actual) := by
  rw [valuesAgree_leaf field flag he ha hleaf, leavesAgree, hfield, Bool.or_true,
    if_pos (by simpa using hspelling)]

/-- The flag of a leaf that repeats what its field says changes nothing. -/
theorem valuesAgree_own_flag {expected : Value} (actual : Value) (field : String)
    (hleaf : isContainer expected = false) :
    valuesAgree expected actual field (isKeyField field) =
      valuesAgree expected actual field false := by
  by_cases h : expected.isEmpty = true ∨ actual.isEmpty = true
  · rw [valuesAgree_unset field _ h, valuesAgree_unset field _ h]
  · simp only [not_or, Bool.not_eq_true] at h
    rw [valuesAgree_leaf field _ h.1 h.2 hleaf, valuesAgree_leaf field _ h.1 h.2 hleaf,
      Bool.or_self, Bool.false_or]

theorem itemsAgree_nil (actual : List Value) (field : String) :
    itemsAgree [] actual field = actual.isEmpty := rfl

theorem compareFields_nil (actual : List (String × Value)) (path : String) :
    compareFields [] actual path = [] := rfl

/-- An unset element is passed over. -/
theorem itemsAgree_cons_unset {item : Value} (rest actual : List Value) (field : String)
    (h : item.isEmpty = true) :
    itemsAgree (item :: rest) actual field = itemsAgree rest actual field := by
  rw [itemsAgree.eq_def]
  exact if_pos h

theorem itemsAgree_cons_set {item : Value} (rest : List Value) (other : Value)
    (others : List Value) (field : String) (h : item.isEmpty = false) :
    itemsAgree (item :: rest) (other :: others) field =
      (valuesAgree item other field false && itemsAgree rest others field) := by
  rw [itemsAgree.eq_def]
  exact if_neg (by simp [h])

/-- Items agree when what is set among them agrees in step with the other elements. -/
theorem itemsAgree_iff (items others : List Value) (field : String) :
    itemsAgree items others field = true ↔
      List.Forall₂ (fun item other => valuesAgree item other field false = true)
        (present items) others := by
  induction items generalizing others with
  | nil => cases others <;> simp [itemsAgree, present]
  | cons item rest ih =>
    cases hitem : item.isEmpty with
    | true =>
      have hpresent : present (item :: rest) = present rest :=
        List.filter_cons_of_neg (by simp [hitem])
      rw [itemsAgree_cons_unset rest others field hitem, ih, hpresent]
    | false =>
      have hpresent : present (item :: rest) = item :: present rest :=
        List.filter_cons_of_pos (by simp [hitem])
      rw [hpresent]
      cases others with
      | nil => simp [itemsAgree, hitem]
      | cons other others =>
        rw [itemsAgree_cons_set rest other others field hitem, Bool.and_eq_true, ih,
          List.forall₂_cons]

/-- Whether two lists of a field agree: as sets of keys in a key field, as sets of texts when
all that is set is text, and in order otherwise. -/
def listsAgree (expected actual : List Value) (field : String) : Bool :=
  if isKeyField field then
    sameMembers (keysOf (present expected)) (keysOf (present actual))
  else match (present expected).mapM Value.asText?, (present actual).mapM Value.asText? with
    | some a, some b => sameMembers a b
    | _, _ => itemsAgree expected (present actual) (FieldPath.leaf field)

/-- A difference of lists shows what is set on both sides. -/
theorem compareLists_eq (expected actual : List Value) (field : String) :
    compareLists expected actual field =
      if listsAgree expected actual field then none
      else some (.mismatch field (.list (present expected)) (.list (present actual))) := rfl

theorem isSome_compareLists (expected actual : List Value) (field : String) :
    (compareLists expected actual field).isSome = !listsAgree expected actual field := by
  rw [compareLists_eq]
  cases listsAgree expected actual field <;> rfl

theorem compareLists_eq_none_iff (expected actual : List Value) (field : String) :
    compareLists expected actual field = none ↔ listsAgree expected actual field = true := by
  rw [← Option.not_isSome_iff_eq_none, isSome_compareLists, Bool.not_eq_true', Bool.not_eq_false]

/-- Two lists that are set agree as lists of the field, whatever the flag says. -/
theorem valuesAgree_lists_eq {a b : List Value} (field : String) (flag : Bool)
    (ha : a ≠ []) (hb : b ≠ []) :
    valuesAgree (.list a) (.list b) field flag = listsAgree a b field := by
  rw [valuesAgree_lists field flag ha hb, compareLists_eq]
  cases listsAgree a b field <;> rfl

/-- Lists agree or not by the last key of their path alone. -/
theorem listsAgree_child (expected actual : List Value) (path key : String) :
    listsAgree expected actual (FieldPath.child path key) = listsAgree expected actual key := by
  rw [listsAgree, KeyMaterial.isKeyField_child, FieldPath.leaf_child, listsAgree]

end RadioAdmin.Compare
