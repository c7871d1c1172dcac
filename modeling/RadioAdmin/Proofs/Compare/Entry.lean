import RadioAdmin.Proofs.Compare.Agreement
import RadioAdmin.Proofs.Value.Basic

/-!
# The comparison of one entry

The comparison of two maps goes on below a key that holds a map on both sides, and has at
most one record for every other key that is expected. What a record says apart from its field
does not depend on where the comparison began.
-/
namespace RadioAdmin.Compare

open KeyMaterial (isKeyField)

/-- What a record says apart from its field. -/
def contents (d : Difference) : DifferenceKind × Option Value × Option Value :=
  (d.kind, d.expected, d.actual)

/-- The record of one expected entry that is not a pair of maps. -/
def entryDifference? (key field : String) : Value → Option Value → Option Difference
  | expected, none => if expected.isEmpty then none else some (.missing field expected)
  | .map _, some (.map _) => none
  | .list items, some (.list others) => compareLists items others field
  | expected, some found =>
    if isContainer expected then
      if expected.isEmpty then none else some (.typeMismatch field expected found)
    else if valuesAgree expected found key (isKeyField key) then none
    else some (.mismatch field expected found)

theorem compareFields_cons (entry : String × Value) (rest actual : List (String × Value))
    (path : String) :
    compareFields (entry :: rest) actual path =
      compareFields [entry] actual path ++ compareFields rest actual path := by
  rw [compareFields, compareFields, compareFields_nil, List.append_nil]

/-- Where nothing differs nothing of one entry does. -/
theorem compareFields_eq_nil_of_mem {expected actual : List (String × Value)} {path : String}
    {entry : String × Value}
    (h : compareFields expected actual path = []) (hentry : entry ∈ expected) :
    compareFields [entry] actual path = [] := by
  induction expected with
  | nil => cases hentry
  | cons first rest ih =>
    rw [compareFields_cons, List.append_eq_nil_iff] at h
    rcases List.mem_cons.mp hentry with rfl | hrest
    · exact h.1
    · exact ih h.2 hrest

theorem compareFields_cons_maps {key : String} {a b : List (String × Value)}
    {actual : List (String × Value)} (rest : List (String × Value)) (path : String)
    (h : Fields.get? actual key = some (.map b)) :
    compareFields ((key, .map a) :: rest) actual path =
      compareFields a b (FieldPath.child path key) ++ compareFields rest actual path := by
  rw [compareFields, h]

theorem compareFields_cons_entry {key : String} {expected : Value}
    {actual : List (String × Value)} (rest : List (String × Value)) (path : String)
    (h : ∀ a b, expected = .map a → Fields.get? actual key ≠ some (.map b)) :
    compareFields ((key, expected) :: rest) actual path =
      (entryDifference? key (FieldPath.child path key) expected (Fields.get? actual key)).toList ++
        compareFields rest actual path := by
  rw [compareFields]
  congr 1
  cases hg : Fields.get? actual key with
  | none => simp only [entryDifference?]; split <;> rfl
  | some found =>
    dsimp only
    split
    · exact absurd hg (h _ _ rfl)
    · rfl
    · rename_i hmaps hlists
      rw [entryDifference?]
      · split
        · split <;> rfl
        · split <;> rfl
      · exact hmaps
      · exact hlists

theorem entryDifference?_container {key field : String} {expected found : Value}
    (hcontainer : isContainer expected = true)
    (hmaps : ∀ a b, expected = .map a → found ≠ .map b)
    (hlists : ∀ a b, expected = .list a → found ≠ .list b) :
    entryDifference? key field expected (some found) =
      if expected.isEmpty then none else some (.typeMismatch field expected found) := by
  rw [entryDifference?, if_pos hcontainer]
  · exact hmaps
  · exact hlists

theorem entryDifference?_leaf {key field : String} {expected found : Value}
    (hleaf : isContainer expected = false) :
    entryDifference? key field expected (some found) =
      if valuesAgree expected found key false then none
      else some (.mismatch field expected found) := by
  rw [entryDifference?, if_neg (by simp [hleaf]), valuesAgree_own_flag _ _ hleaf]
  · rintro a b rfl -
    cases hleaf
  · rintro a b rfl -
    cases hleaf

theorem entryDifference?_contents (key path other : String) (expected : Value)
    (found? : Option Value) :
    (entryDifference? key (FieldPath.child path key) expected found?).map contents =
      (entryDifference? key (FieldPath.child other key) expected found?).map contents := by
  cases found? with
  | none =>
    rw [entryDifference?, entryDifference?]
    split <;> rfl
  | some found =>
    have hcontainer (h : isContainer expected = true)
        (hmaps : ∀ a b, expected = .map a → found ≠ .map b)
        (hlists : ∀ a b, expected = .list a → found ≠ .list b) :
        (entryDifference? key (FieldPath.child path key) expected (some found)).map contents =
          (entryDifference? key (FieldPath.child other key) expected (some found)).map
            contents := by
      rw [entryDifference?_container h hmaps hlists, entryDifference?_container h hmaps hlists]
      split <;> rfl
    cases expected with
    | map fields =>
      cases found with
      | map others => rfl
      | _ => exact hcontainer rfl (fun _ _ _ he => by cases he) (fun _ _ he => by cases he)
    | list items =>
      cases found with
      | list others =>
        rw [entryDifference?, entryDifference?, compareLists_eq, compareLists_eq, listsAgree_child,
          listsAgree_child]
        split <;> rfl
      | _ => exact hcontainer rfl (fun _ _ he => by cases he) (fun _ _ _ he => by cases he)
    | _ =>
      rw [entryDifference?_leaf rfl, entryDifference?_leaf rfl]
      split <;> rfl

/-- Where a comparison begins shows in the fields of its records alone. -/
theorem compareFields_contents (expected : List (String × Value)) :
    ∀ (actual : List (String × Value)) (path other : String),
      (compareFields expected actual path).map contents =
        (compareFields expected actual other).map contents := by
  induction expected using Value.fields_induction with
  | nil => intro actual path other; rw [compareFields_nil, compareFields_nil]
  | cons key value rest ihBelow ihRest =>
    intro actual path other
    by_cases hmaps : ∃ a b, value = .map a ∧ Fields.get? actual key = some (.map b)
    · obtain ⟨a, b, rfl, hb⟩ := hmaps
      rw [compareFields_cons_maps rest path hb, compareFields_cons_maps rest other hb,
        List.map_append, List.map_append, ihRest actual path other,
        ihBelow a rfl b (FieldPath.child path key) (FieldPath.child other key)]
    · have hmaps' : ∀ a b, value = .map a → Fields.get? actual key ≠ some (.map b) :=
        fun a b ha hb => hmaps ⟨a, b, ha, hb⟩
      rw [compareFields_cons_entry rest path hmaps', compareFields_cons_entry rest other hmaps',
        List.map_append, List.map_append, ihRest actual path other, ← Option.toList_map,
        ← Option.toList_map, entryDifference?_contents key path other]

end RadioAdmin.Compare
