import RadioAdmin.Proofs.Compare.Sets

/-!
# The flag of a key field

A field counts as a key field by its name or because the caller says so. Unset values, maps and all
pairs of leaves are compared alike for both reasons. Lists are handed on with the name of the field
alone, so that the flag is lost on them: they are compared as lists of the field that is named.
-/
namespace RadioAdmin.Compare

open KeyMaterial (isKeyField)

/-- Two values that are both lists with something in them. -/
def AreSetLists (expected actual : Value) : Prop :=
  ∃ items others, expected = .list items ∧ actual = .list others ∧ items ≠ [] ∧ others ≠ []

/-- The flag is as good as the name of a key field for all but lists. -/
theorem valuesAgree_flag_eq_named {expected actual : Value} (field : String) {name : String}
    (hname : isKeyField name = true) (hlists : ¬ AreSetLists expected actual) :
    valuesAgree expected actual field true = valuesAgree expected actual name false := by
  by_cases hunset : expected.isEmpty = true ∨ actual.isEmpty = true
  · rw [valuesAgree_unset field true hunset, valuesAgree_unset name false hunset]
  simp only [not_or, Bool.not_eq_true] at hunset
  obtain ⟨hexpected, hactual⟩ := hunset
  have hnil : ∀ items, (Value.list items).isEmpty = false → items ≠ [] := by
    rintro items hset rfl
    cases hset
  by_cases hmaps : ∃ fields others, expected = .map fields ∧ actual = .map others
  · obtain ⟨fields, others, rfl, rfl⟩ := hmaps
    have hfields : fields ≠ [] := by simpa [Value.isEmpty] using hexpected
    have hothers : others ≠ [] := by simpa [Value.isEmpty] using hactual
    rw [valuesAgree_maps field true hfields hothers, valuesAgree_maps name false hfields hothers]
  · have hmaps' : ∀ fields others, expected = .map fields → actual ≠ .map others :=
      fun fields others he ha => hmaps ⟨fields, others, he, ha⟩
    have hlists' : ∀ items others, expected = .list items → actual ≠ .list others := by
      rintro items others rfl rfl
      exact hlists ⟨items, others, rfl, rfl, hnil items hexpected, hnil others hactual⟩
    rw [valuesAgree_mixed field true hexpected hactual hmaps' hlists',
      valuesAgree_mixed name false hexpected hactual hmaps' hlists', hname, Bool.true_or,
      Bool.or_true]

/-- On two lists that are set the flag is as good as none. So it means what the name of a key field
means, exactly unless both values are such lists and agree as lists of the field but do not hold the
same keys, or hold the same keys but do not agree so. -/
theorem valuesAgree_flag_iff (expected actual : Value) (field : String) :
    (AreSetLists expected actual →
      valuesAgree expected actual field true = valuesAgree expected actual field false) ∧
    (valuesAgree expected actual field true = valuesAgree expected actual "psk" false ↔
      ∀ items others, expected = .list items → actual = .list others → items ≠ [] → others ≠ [] →
        (listsAgree items others field = true ↔
          ∀ key, key ∈ keysOf (present items) ↔ key ∈ keysOf (present others))) := by
  have hname : isKeyField "psk" = true := by decide +kernel
  refine ⟨?_, ?_, ?_⟩
  · rintro ⟨items, others, rfl, rfl, hitems, hothers⟩
    rw [valuesAgree_lists_eq field true hitems hothers,
      valuesAgree_lists_eq field false hitems hothers]
  · rintro hflag items others rfl rfl hitems hothers
    rw [valuesAgree_lists_eq field true hitems hothers,
      valuesAgree_lists_eq "psk" false hitems hothers] at hflag
    rw [hflag, listsAgree_iff_keysOf hname]
  · intro h
    by_cases hlists : AreSetLists expected actual
    · obtain ⟨items, others, rfl, rfl, hitems, hothers⟩ := hlists
      rw [valuesAgree_lists_eq field true hitems hothers,
        valuesAgree_lists_eq "psk" false hitems hothers, Bool.eq_iff_iff,
        listsAgree_iff_keysOf hname]
      exact h items others rfl rfl hitems hothers
    · exact valuesAgree_flag_eq_named field hname hlists

/-- The flag matches a spelling of a key with the list that holds it, but no longer when the spelling
stands in a list of its own. -/
theorem valuesAgree_flag_lost :
    isKeyField "key" = false ∧
    valuesAgree (.text "AQ==") (.list [.int 1]) "key" true = true ∧
    valuesAgree (.list [.text "AQ=="]) (.list [.text "01"]) "psk" false = true ∧
    valuesAgree (.list [.text "AQ=="]) (.list [.text "01"]) "key" true = false := by
  decide +kernel

end RadioAdmin.Compare
