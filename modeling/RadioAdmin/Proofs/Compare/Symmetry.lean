import Mathlib.Data.List.Forall2
import RadioAdmin.Proofs.Compare.Agreement
import RadioAdmin.Proofs.Compare.Distance
import RadioAdmin.Proofs.Value.Basic

/-!
# Agreement in both directions

Only maps are compared by the keys of one side alone. Everywhere else the two sides may change
places: leaves are coerced by rules that come in pairs, keys and texts are compared as sets, and all
other lists element by element.
-/
namespace RadioAdmin

namespace Value

mutual

/-- No map stands at any depth. -/
def WithoutMaps : Value → Prop
  | .map _ => False
  | .list items => WithoutMapsItems items
  | _ => True

def WithoutMapsItems : List Value → Prop
  | [] => True
  | item :: rest => WithoutMaps item ∧ WithoutMapsItems rest

end

theorem withoutMapsItems_iff (items : List Value) :
    WithoutMapsItems items ↔ ∀ item ∈ items, WithoutMaps item := by
  induction items with
  | nil => simp [WithoutMapsItems]
  | cons item rest ih => simp [WithoutMapsItems, ih]

theorem WithoutMaps.ne_map {value : Value} (h : value.WithoutMaps) (fields : List (String × Value)) :
    value ≠ .map fields := by
  rintro rfl
  exact h

theorem WithoutMaps.of_mem {items : List Value} (h : (Value.list items).WithoutMaps) {item : Value}
    (hitem : item ∈ items) : item.WithoutMaps :=
  (withoutMapsItems_iff items).mp h item hitem

end Value

namespace Compare

theorem sameMembers_comm {α : Type} [BEq α] (a b : List α) : sameMembers a b = sameMembers b a :=
  Bool.and_comm ..

/-- Each rule that a pair of kinds falls under has a mirrored rule, or is the same for both. -/
theorem coerced_comm (a b : Value) : coerced a b = coerced b a := by
  cases a with
  | int x =>
    cases b with
    | float y => exact near_comm ..
    | text _ | bool _ => rfl
    | _ => exact BEq.comm
  | float x =>
    cases b with
    | int y | float y => exact near_comm ..
    | text _ | bool _ => rfl
    | _ => exact BEq.comm
  | text string =>
    cases b with
    | int _ | float _ | bool _ => rfl
    | _ => exact BEq.comm
  | bool flag =>
    cases b with
    | int _ | float _ | text _ => rfl
    | _ => exact BEq.comm
  | null | bytes _ | list _ | map _ => cases b <;> exact BEq.comm

theorem leavesAgree_comm (a b : Value) (inKeyField : Bool) :
    leavesAgree a b inKeyField = leavesAgree b a inKeyField := by
  rw [leavesAgree, leavesAgree, Bool.or_comm, coerced_comm, BEq.comm (α := Option (List UInt8))]

variable {items others : List Value}

theorem itemsAgree_comm (field : String)
    (h : ∀ item ∈ items, ∀ other ∈ others,
      valuesAgree item other field false = valuesAgree other item field false) :
    itemsAgree items (present others) field = itemsAgree others (present items) field := by
  have hset : ∀ item ∈ present items, ∀ other ∈ present others,
      valuesAgree item other field false = valuesAgree other item field false :=
    fun item hitem other hother =>
      h item (List.mem_of_mem_filter hitem) other (List.mem_of_mem_filter hother)
  rw [Bool.eq_iff_iff, itemsAgree_iff, itemsAgree_iff, List.forall₂_iff_get, List.forall₂_iff_get]
  refine and_congr eq_comm ⟨fun hagree i hi hj => ?_, fun hagree i hi hj => ?_⟩
  · rw [← hset _ (List.get_mem _ _) _ (List.get_mem _ _)]
    exact hagree i hj hi
  · rw [hset _ (List.get_mem _ _) _ (List.get_mem _ _)]
    exact hagree i hj hi

/-- Which way two lists are compared is a matter of the field and of both lists. -/
theorem listsAgree_comm (field : String)
    (h : ∀ item ∈ items, ∀ other ∈ others, ∀ field,
      valuesAgree item other field false = valuesAgree other item field false) :
    listsAgree items others field = listsAgree others items field := by
  rw [listsAgree, listsAgree, sameMembers_comm]
  split
  · rfl
  · cases (present items).mapM Value.asText? with
    | none =>
      have hitems := itemsAgree_comm (FieldPath.leaf field)
        fun item hitem other hother => h item hitem other hother _
      cases (present others).mapM Value.asText? <;> exact hitems
    | some texts =>
      cases (present others).mapM Value.asText? with
      | none => exact itemsAgree_comm _ fun item hitem other hother => h item hitem other hother _
      | some strings => exact sameMembers_comm ..

theorem valuesAgree_comm_of_unset {expected actual : Value} (field : String) (flag : Bool)
    (hunset : expected.isEmpty = true ∨ actual.isEmpty = true) :
    valuesAgree expected actual field flag = valuesAgree actual expected field flag := by
  rw [valuesAgree_unset field flag hunset, valuesAgree_unset field flag hunset.symm, Bool.and_comm]

/-- What is not compared member by member may change places, set or not. -/
theorem valuesAgree_comm_of_mixed {expected actual : Value} (field : String) (flag : Bool)
    (hmaps : ∀ a b, expected = .map a → actual ≠ .map b)
    (hlists : ∀ a b, expected = .list a → actual ≠ .list b) :
    valuesAgree expected actual field flag = valuesAgree actual expected field flag := by
  by_cases hunset : expected.isEmpty = true ∨ actual.isEmpty = true
  · exact valuesAgree_comm_of_unset field flag hunset
  · simp only [not_or, Bool.not_eq_true] at hunset
    rw [valuesAgree_mixed field flag hunset.1 hunset.2 hmaps hlists,
      valuesAgree_mixed field flag hunset.2 hunset.1 (fun a b ha hb => hmaps b a hb ha)
        (fun a b ha hb => hlists b a hb ha), leavesAgree_comm]

theorem valuesAgree_comm_of_lists (field : String) (flag : Bool)
    (h : listsAgree items others field = listsAgree others items field) :
    valuesAgree (.list items) (.list others) field flag =
      valuesAgree (.list others) (.list items) field flag := by
  by_cases hunset : (Value.list items).isEmpty = true ∨ (Value.list others).isEmpty = true
  · exact valuesAgree_comm_of_unset field flag hunset
  · simp only [not_or, Value.isEmpty, List.isEmpty_iff] at hunset
    rw [valuesAgree_lists_eq field flag hunset.1 hunset.2,
      valuesAgree_lists_eq field flag hunset.2 hunset.1, h]

/-- Values without maps agree or not in both directions alike. -/
theorem valuesAgree_comm (expected actual : Value) (he : expected.WithoutMaps)
    (ha : actual.WithoutMaps) (field : String) (flag : Bool) :
    valuesAgree expected actual field flag = valuesAgree actual expected field flag := by
  induction expected using Value.members_induction generalizing actual field flag with
  | map fields => exact absurd rfl (he.ne_map fields)
  | leaf expected hlists hmaps =>
    exact valuesAgree_comm_of_mixed field flag (fun a _ h => absurd h (hmaps a))
      (fun a _ h => absurd h (hlists a))
  | list items ih =>
    by_cases hlist : ∃ others, actual = .list others
    · obtain ⟨others, rfl⟩ := hlist
      refine valuesAgree_comm_of_lists field flag (listsAgree_comm field ?_)
      intro item hitem other hother field
      exact ih item hitem other (he.of_mem hitem) (ha.of_mem hother) field false
    · exact valuesAgree_comm_of_mixed field flag (fun a _ h => absurd h (he.ne_map a))
        (fun _ b _ hb => hlist ⟨b, hb⟩)

/-- Nested lists with spellings of a key, numbers and a flag, and what is unset among them. -/
theorem valuesAgree_comm_nested :
    let expected : Value := .list [.list [.bytes [1, 2], .null], .int 1, .text "2.5"]
    let actual : Value := .list [.list [.text "AQI="], .null, .bool true, .float 2.5]
    (expected.WithoutMaps ∧ actual.WithoutMaps) ∧
      valuesAgree expected actual "values" false = true ∧
      valuesAgree actual expected "values" false = true := by
  intro expected actual
  have he : expected.WithoutMaps := by
    simp [expected, Value.WithoutMaps, Value.WithoutMapsItems]
  have ha : actual.WithoutMaps := by
    simp [actual, Value.WithoutMaps, Value.WithoutMapsItems]
  have hforth : valuesAgree expected actual "values" false = true := by decide +kernel
  have hback := valuesAgree_comm expected actual he ha "values" false
  exact ⟨⟨he, ha⟩, hforth, hback.symm.trans hforth⟩

end Compare

end RadioAdmin
