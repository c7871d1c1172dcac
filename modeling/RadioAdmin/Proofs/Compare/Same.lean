import RadioAdmin.Proofs.Compare.Congruence
import RadioAdmin.Proofs.Compare.Near

/-!
# Agreement of values that are the same

Values that are the same agree in every field, as long as their doubles are finite: the
comparison is reflexive up to the signs of zeros and the order of keys in maps. An infinity
is the same as itself and yet not near itself. As configurations such values have no difference,
strictly or not, since the keys of each of two maps are those of the other.
-/
namespace RadioAdmin.Compare

open Value (same AllFinite)

/-- A leaf reads like itself, if it is finite. -/
theorem readAlike_self {value : Value} (hfinite : AllFinite value)
    (hleaf : isContainer value = false) : ReadAlike value value := by
  have hcoerced : coerced value value = true := by
    cases value with
    | float number => exact near_of_beq hfinite (beq_self_of_isFinite hfinite)
    | list items => cases hleaf
    | map fields => cases hleaf
    | _ => exact BEq.rfl
  exact ⟨hleaf, rfl, rfl, rfl, fun s t hs ht => Option.some.inj (hs.symm.trans ht), hcoerced⟩

theorem readAlike_of_same {value other : Value} (hsame : same value other = true)
    (hfinite : AllFinite value) (hleaf : isContainer value = false) : ReadAlike value other := by
  rcases Value.same_cases hsame with ⟨rfl, -⟩ | ⟨x, y, rfl, rfl, hxy⟩ |
    ⟨items, others, rfl, -⟩ | ⟨fields, others, rfl, -⟩
  · exact readAlike_self hfinite hleaf
  · have hnear : near x y = true := near_of_beq hfinite hxy
    exact ⟨rfl, rfl, rfl, rfl, fun s t hs _ => (by cases hs), hnear⟩
  · cases hleaf
  · cases hleaf

theorem congruent_same : Congruent fun a b => AllFinite a ∧ same a b = true where
  leaf := fun ⟨hfinite, hsame⟩ hleaf => readAlike_of_same hsame hfinite hleaf
  list := by
    rintro items b ⟨hfinite, hsame⟩
    cases b with
    | list others =>
      rw [same, Value.sameItems_iff] at hsame
      rw [AllFinite, Value.allFiniteItems_iff] at hfinite
      exact ⟨others, rfl, (List.forall₂_and_left items others).mpr ⟨hfinite, hsame⟩⟩
    | _ => simp [same] at hsame
  map := by
    rintro fields b ⟨hfinite, hsame⟩
    cases b with
    | map others =>
      rw [same, Bool.and_eq_true, beq_iff_eq, Value.sameFields_iff] at hsame
      rw [AllFinite, Value.allFiniteFields_iff] at hfinite
      refine ⟨others, rfl, hsame.1, fun entry hentry => ?_⟩
      obtain ⟨found, hget, hfound⟩ := hsame.2 entry hentry
      exact ⟨found, hget, hfinite entry hentry, hfound⟩
    | _ => simp [same] at hsame

/-- Values that are the same agree in every field, as long as their doubles are finite. -/
theorem valuesAgree_of_same {value other : Value} (hsame : same value other = true)
    (hfinite : AllFinite value) (field : String) (flag : Bool) :
    valuesAgree value other field flag = true :=
  congruent_same.valuesAgree value other ⟨hfinite, hsame⟩ field flag

theorem congruent_same_wellFormed :
    Congruent fun a b => a.WellFormed ∧ AllFinite a ∧ same a b = true :=
  Congruent.restrict congruent_same
    (fun hw => (Value.wellFormedItems_iff _).mp hw)
    (fun hw => (Value.wellFormedFields_iff _).mp hw.2)

/-- Of two maps that are the same, neither has a key of its own. -/
theorem extras_eq_nil_of_same {fields others : List (String × Value)}
    (hd : Fields.Distinct fields) (hsame : same (.map fields) (.map others) = true) :
    extras fields others = [] := by
  refine extras_eq_nil_of_subset fun name hname => ?_
  obtain ⟨found, hfound⟩ := Option.isSome_iff_exists.mp (Fields.has_iff.mpr hname)
  obtain ⟨value, hvalue, -⟩ := Value.exists_get?_of_same hd hsame hfound
  exact Fields.mem_names_of_get? hvalue

/-- Finite values that are the same have no difference as configurations, whether or not undefined
fields are allowed, and agree in every field. -/
theorem compareConfigs_eq_nil_of_same (expected actual : Value) (hw : expected.WellFormed)
    (hfinite : AllFinite expected) (hsame : same expected actual = true) :
    (∀ allowUndefined, compareConfigs expected actual none allowUndefined = []) ∧
      ∀ field flag, valuesAgree expected actual field flag = true := by
  refine ⟨fun allowUndefined => ?_, valuesAgree_of_same hsame hfinite⟩
  refine Congruent.compareConfigs_eq_nil congruent_same_wellFormed ⟨hw, hfinite, hsame⟩ ?_
  rintro fields others ⟨hwfields, -, hsamefields⟩
  exact Or.inr (extras_eq_nil_of_same hwfields.1 hsamefields)

/-- Keys in another order at two depths, zeros of both signs, a key field and a list that holds
more than texts. -/
theorem compareConfigs_eq_nil_of_same_reordered :
    let expected : Value := .map [("lora", .map [("region", .int 1), ("offset", .float 0.0)]),
      ("security", .map [("psk", .bytes [1, 2])]), ("tags", .list [.text "a", .null, .int 3])]
    let actual : Value := .map [("tags", .list [.text "a", .null, .int 3]),
      ("lora", .map [("offset", .float (-0.0)), ("region", .int 1)]),
      ("security", .map [("psk", .bytes [1, 2])])]
    (expected.WellFormed ∧ AllFinite expected ∧ same expected actual = true) ∧
      compareConfigs expected actual none false = [] ∧
      valuesAgree expected actual "psk" true = true := by
  intro expected actual
  have hw : expected.WellFormed := by
    simp [expected, Value.WellFormed, Value.WellFormedFields, Value.WellFormedItems,
      Fields.Distinct, Fields.names]
  have hoffset : (0.0 : Float).isFinite = true := rfl
  have hfinite : AllFinite expected := by
    simp [expected, AllFinite, Value.AllFiniteFields, Value.AllFiniteItems, hoffset]
  have hsame : same expected actual = true := rfl
  have hequal := compareConfigs_eq_nil_of_same expected actual hw hfinite hsame
  exact ⟨⟨hw, hfinite, hsame⟩, hequal.1 false, hequal.2 "psk" true⟩

end RadioAdmin.Compare
