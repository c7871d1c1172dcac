import RadioAdmin.Compare.Configuration
import RadioAdmin.Proofs.Compare.Agreement

/-!
# Configurations in envelopes

An envelope is opened before its contents are compared, so wrapping one side should not matter. But
whether anything is expected, and whether anything is there, is asked of the two sides before they
are unwrapped, and an envelope is set even when its contents are not. So unset contents are compared
as a value where the bare side would have settled the comparison.
-/
namespace RadioAdmin.Compare

/-- Both values are maps. -/
def AreMaps (expected actual : Value) : Prop :=
  ∃ fields others, expected = .map fields ∧ actual = .map others

/-- A map that is set and has no field that is set. -/
def HoldsNothing (value : Value) : Prop :=
  ∃ fields, value = .map fields ∧ fields ≠ [] ∧ ∀ entry ∈ fields, entry.2.isEmpty = true

variable {expected actual : Value} {sectionName : Option String}

theorem unwrap?_singleton (key : String) (value : Value) :
    unwrap? (.map [(key, value)]) = if key ∈ envelopeKeys then some value else none := by
  simp only [unwrap?, List.contains_iff_mem]

theorem compareUnwrapped_maps (fields others : List (String × Value)) (root : String) :
    compareUnwrapped (.map fields) (.map others) root true = compareFields fields others "" := by
  rw [compareUnwrapped, if_pos rfl, List.append_nil]

/-- Where one side is no map the two sides meet as values of the root. -/
theorem compareUnwrapped_mixed_iff (root : String) (hmaps : ¬ AreMaps expected actual) :
    compareUnwrapped expected actual root true = [] ↔
      valuesAgree expected actual root false = true := by
  rw [compareUnwrapped.eq_def]
  split
  · exact absurd ⟨_, _, rfl, rfl⟩ hmaps
  · split
    · rename_i hagree
      exact iff_of_true rfl hagree
    · rename_i hdiffer
      refine iff_of_false (fun h => ?_) hdiffer
      split at h <;> cases h

/-- Whatever is set is missing from an unset map. -/
theorem compareFields_unset_iff (fields : List (String × Value)) (path : String) :
    compareFields fields [] path = [] ↔ ∀ entry ∈ fields, entry.2.isEmpty = true := by
  induction fields with
  | nil => exact iff_of_true rfl fun _ h => absurd h List.not_mem_nil
  | cons entry rest ih =>
    obtain ⟨key, value⟩ := entry
    have hnone : Fields.get? ([] : List (String × Value)) key = none := rfl
    rw [compareFields, hnone, List.append_eq_nil_iff, ih, List.forall_mem_cons]
    refine and_congr_left' ?_
    cases value.isEmpty <;> simp

theorem allMissing_eq_nil_iff (fields : List (String × Value)) :
    allMissing fields = [] ↔ ∀ entry ∈ fields, entry.2.isEmpty = true := by
  rw [allMissing, List.map_eq_nil_iff, List.filter_eq_nil_iff]
  simp only [Bool.not_eq_true', Bool.not_eq_false]

theorem ne_nil_of_isEmpty {fields : List (String × Value)}
    (h : (Value.map fields).isEmpty = false) : fields ≠ [] := by
  rintro rfl
  cases h

theorem holdsNothing_map_iff {fields : List (String × Value)} (hset : fields ≠ []) :
    HoldsNothing (.map fields) ↔ ∀ entry ∈ fields, entry.2.isEmpty = true := by
  constructor
  · rintro ⟨inner, hinner, -, hunset⟩
    obtain rfl := Value.map.inj hinner
    exact hunset
  · intro hunset
    exact ⟨fields, rfl, hset, hunset⟩

theorem configsAgree_of_unset_expected (h : expected.isEmpty = true) :
    configsAgree expected actual sectionName = true := by
  rw [configsAgree, compareConfigs.eq_def, if_pos h, List.isEmpty_nil]

/-- An unset configuration meets what holds nothing. -/
theorem configsAgree_of_unset_actual (hexpected : expected.isEmpty = false)
    (hactual : actual.isEmpty = true) :
    configsAgree expected actual sectionName = true ↔ HoldsNothing expected := by
  rw [configsAgree, compareConfigs.eq_def, hexpected, hactual, if_neg Bool.false_ne_true,
    if_pos rfl, List.isEmpty_iff]
  cases expected with
  | map fields =>
    rw [holdsNothing_map_iff (ne_nil_of_isEmpty hexpected)]
    exact allMissing_eq_nil_iff fields
  | _ =>
    refine iff_of_false (List.cons_ne_nil _ _) ?_
    rintro ⟨fields, h, -⟩
    cases h

theorem configsAgree_of_set (hexpected : expected.isEmpty = false)
    (hactual : actual.isEmpty = false) :
    configsAgree expected actual sectionName = true ↔
      compareUnwrapped (unwrapExpected expected) (unwrapActual actual sectionName)
        (sectionName.getD "") true = [] := by
  rw [configsAgree, compareConfigs.eq_def, hexpected, hactual, if_neg Bool.false_ne_true,
    if_neg Bool.false_ne_true, List.isEmpty_iff]

/-- Without envelopes only maps agree when one side of them is unset. -/
theorem compareUnwrapped_of_unset_expected (root : String) (hexpected : expected.isEmpty = true)
    (hactual : actual.isEmpty = false) :
    compareUnwrapped expected actual root true = [] ↔ AreMaps expected actual := by
  by_cases hmaps : AreMaps expected actual
  · refine iff_of_true ?_ hmaps
    obtain ⟨fields, others, rfl, rfl⟩ := hmaps
    obtain rfl := List.isEmpty_iff.mp hexpected
    rw [compareUnwrapped_maps, compareFields_nil]
  · rw [compareUnwrapped_mixed_iff root hmaps, valuesAgree_unset root false (.inl hexpected),
      hactual, Bool.and_false]
    exact iff_of_false Bool.false_ne_true hmaps

theorem compareUnwrapped_of_unset_actual (root : String) (hexpected : expected.isEmpty = false)
    (hactual : actual.isEmpty = true) :
    compareUnwrapped expected actual root true = [] ↔
      HoldsNothing expected ∧ AreMaps expected actual := by
  by_cases hmaps : AreMaps expected actual
  · rw [and_iff_left hmaps]
    obtain ⟨fields, others, rfl, rfl⟩ := hmaps
    obtain rfl := List.isEmpty_iff.mp hactual
    rw [compareUnwrapped_maps, compareFields_unset_iff,
      holdsNothing_map_iff (ne_nil_of_isEmpty hexpected)]
  · rw [compareUnwrapped_mixed_iff root hmaps, valuesAgree_unset root false (.inr hactual),
      hexpected, Bool.false_and]
    exact iff_of_false Bool.false_ne_true fun h => hmaps h.2

section

variable {key : String} (hkey : key ∈ envelopeKeys)

include hkey

theorem unwrap?_envelope (value : Value) : unwrap? (.map [(key, value)]) = some value := by
  rw [unwrap?_singleton, if_pos hkey]

theorem configsAgree_wrapped_expected :
    configsAgree (.map [(key, expected)]) actual sectionName = true ↔
      if actual.isEmpty then expected.isEmpty = true
      else compareUnwrapped expected (unwrapActual actual sectionName) (sectionName.getD "") true =
        [] := by
  have hset : (Value.map [(key, expected)]).isEmpty = false := rfl
  cases hactual : actual.isEmpty with
  | true =>
    rw [configsAgree_of_unset_actual hset hactual, if_pos rfl,
      holdsNothing_map_iff (List.cons_ne_nil _ _), List.forall_mem_singleton]
  | false =>
    rw [configsAgree_of_set hset hactual, if_neg Bool.false_ne_true, unwrapExpected,
      unwrap?_envelope hkey, Option.getD_some]

theorem configsAgree_wrapped_actual (hexpected : expected.isEmpty = false) :
    configsAgree expected (.map [(key, actual)]) sectionName = true ↔
      compareUnwrapped (unwrapExpected expected) actual (sectionName.getD "") true = [] := by
  rw [configsAgree_of_set hexpected rfl, unwrapActual, unwrap?_envelope hkey, Option.some_or,
    Option.getD_some]

end

theorem unwrapExpected_of_bare (h : unwrap? expected = none) :
    unwrapExpected expected = expected := by
  rw [unwrapExpected, h, Option.getD_none]

theorem unwrapActual_of_bare (h : unwrap? actual = none)
    (hsection : ∀ asked, sectionName = some asked → actual.get? asked = none) :
    unwrapActual actual sectionName = actual := by
  have hpart : sectionName.bind actual.get? = none := by
    cases sectionName with
    | none => rfl
    | some asked => exact hsection asked rfl
  rw [unwrapActual, h, hpart, Option.or_none, Option.getD_none]

theorem not_holdsNothing_of_isEmpty (h : expected.isEmpty = true) : ¬ HoldsNothing expected := by
  rintro ⟨fields, rfl, hset, -⟩
  exact hset (List.isEmpty_iff.mp h)

theorem configsAgree_wrapped_expected_eq_iff {key : String} (hkey : key ∈ envelopeKeys)
    (hexpected : unwrap? expected = none) (hactual : unwrapActual actual sectionName = actual) :
    configsAgree (.map [(key, expected)]) actual sectionName =
        configsAgree expected actual sectionName ↔
      ¬ (expected.isEmpty = true ∧ actual.isEmpty = false ∧ ¬ AreMaps expected actual) ∧
      ¬ (HoldsNothing expected ∧ actual.isEmpty = true) := by
  rw [Bool.eq_iff_iff, configsAgree_wrapped_expected hkey, hactual]
  cases he : expected.isEmpty with
  | true =>
    have hnot := not_holdsNothing_of_isEmpty he
    rw [configsAgree_of_unset_expected he]
    cases ha : actual.isEmpty with
    | true => simp [hnot]
    | false =>
      rw [if_neg Bool.false_ne_true, compareUnwrapped_of_unset_expected _ he ha]
      simp [hnot]
  | false =>
    cases ha : actual.isEmpty with
    | true =>
      rw [configsAgree_of_unset_actual he ha]
      simp
    | false =>
      rw [configsAgree_of_set he ha, unwrapExpected_of_bare hexpected, hactual]
      simp

theorem configsAgree_wrapped_actual_eq_iff {key : String} (hkey : key ∈ envelopeKeys)
    (hexpected : unwrap? expected = none) (hactual : unwrapActual actual sectionName = actual) :
    configsAgree expected (.map [(key, actual)]) sectionName =
        configsAgree expected actual sectionName ↔
      ¬ (HoldsNothing expected ∧ actual.isEmpty = true ∧ ¬ AreMaps expected actual) := by
  cases he : expected.isEmpty with
  | true =>
    have hnot := not_holdsNothing_of_isEmpty he
    rw [configsAgree_of_unset_expected he, configsAgree_of_unset_expected he]
    simp [hnot]
  | false =>
    rw [Bool.eq_iff_iff, configsAgree_wrapped_actual hkey he, unwrapExpected_of_bare hexpected]
    cases ha : actual.isEmpty with
    | true =>
      rw [configsAgree_of_unset_actual he ha, compareUnwrapped_of_unset_actual _ he ha]
      simp
    | false =>
      rw [configsAgree_of_set he ha, unwrapExpected_of_bare hexpected, hactual]
      simp

/-- An envelope around the expected side is noticed exactly when its contents are unset and a set
configuration is not a map like them, or when its contents hold nothing and the configuration is
unset. An envelope around the actual side is noticed exactly when a map that holds nothing is
expected and the contents are unset and no map. -/
theorem configsAgree_envelope (key : String) (hkey : key ∈ envelopeKeys) (expected actual : Value)
    (sectionName : Option String) (hexpected : unwrap? expected = none)
    (hactual : unwrap? actual = none)
    (hsection : ∀ asked, sectionName = some asked → actual.get? asked = none) :
    (configsAgree (.map [(key, expected)]) actual sectionName =
        configsAgree expected actual sectionName ↔
      ¬ (expected.isEmpty = true ∧ actual.isEmpty = false ∧ ¬ AreMaps expected actual) ∧
      ¬ (HoldsNothing expected ∧ actual.isEmpty = true)) ∧
    (configsAgree expected (.map [(key, actual)]) sectionName =
        configsAgree expected actual sectionName ↔
      ¬ (HoldsNothing expected ∧ actual.isEmpty = true ∧ ¬ AreMaps expected actual)) := by
  have hbare := unwrapActual_of_bare hactual hsection
  exact ⟨configsAgree_wrapped_expected_eq_iff hkey hexpected hbare,
    configsAgree_wrapped_actual_eq_iff hkey hexpected hbare⟩

/-- An envelope of another section than the one asked for is opened as well. -/
theorem configsAgree_envelope_lora :
    let expected : Value := .map [("region", .text ""), ("hop_limit", .int 3)]
    let actual : Value := .map [("hop_limit", .float 3.0), ("region", .null)]
    "lora" ∈ envelopeKeys ∧ unwrap? expected = none ∧ unwrap? actual = none ∧
    actual.get? "power" = none ∧
    configsAgree (.map [("lora", expected)]) actual (some "power") =
      configsAgree expected actual (some "power") ∧
    configsAgree expected (.map [("lora", actual)]) (some "power") =
      configsAgree expected actual (some "power") := by
  intro expected actual
  have hkey : "lora" ∈ envelopeKeys := by decide
  have hother : actual.get? "power" = none := by decide +kernel
  have hasked : ∀ asked, some "power" = some asked → actual.get? asked = none := by
    intro asked h
    obtain rfl := Option.some.inj h
    exact hother
  obtain ⟨houter, hinner⟩ :=
    configsAgree_envelope "lora" hkey expected actual (some "power") rfl rfl hasked
  have hset : actual.isEmpty ≠ true := by decide
  exact ⟨hkey, rfl, rfl, hother,
    houter.mpr ⟨fun h => Bool.noConfusion h.1, fun h => hset h.2⟩,
    hinner.mpr fun h => hset h.2.1⟩

/-- A section that expects nothing is not met, and a section that holds nothing does not meet an
expected map that holds nothing either, although both are met without the envelope. -/
theorem configsAgree_unset_section :
    let reported : Value := .map [("role", .int 1)]
    let unset : Value := .map [("role", .null)]
    "device" ∈ envelopeKeys ∧ unwrap? .null = none ∧ unwrap? reported = none ∧
    unwrap? unset = none ∧
    configsAgree .null reported none = true ∧
    configsAgree (.map [("device", .null)]) reported none = false ∧
    configsAgree unset (.map []) none = true ∧
    configsAgree (.map [("device", unset)]) (.map []) none = false ∧
    configsAgree unset .null none = true ∧
    configsAgree unset (.map [("device", .null)]) none = false := by
  intro reported unset
  refine ⟨by decide, rfl, rfl, rfl, ?_⟩
  decide +kernel

end RadioAdmin.Compare
