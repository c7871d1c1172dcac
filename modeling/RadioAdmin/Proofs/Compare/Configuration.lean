import RadioAdmin.Proofs.Compare.Same

/-!
# Comparison of a configuration with one that is the same

The expected side is unwrapped by the names of sections alone, the actual side also by the
section that the caller asks for. So a configuration that is the same is met by the other
unless the other holds that section among more: then the whole is compared with its part.
-/
namespace RadioAdmin.Compare

open Value (same AllFinite)

/-- The section that stands for a whole actual configuration when it is asked for by name. An
envelope is opened first, whatever its name. -/
def readAsSection? (actual : Value) (sectionName : String) : Option Value :=
  if (unwrap? actual).isSome then none else actual.get? sectionName

theorem unwrapActual_of_readAsSection? {actual contents : Value} {sectionName : String}
    (h : readAsSection? actual sectionName = some contents) :
    unwrapActual actual (some sectionName) = contents := by
  rw [readAsSection?] at h
  split at h
  · cases h
  · rename_i hnone
    rw [Option.not_isSome_iff_eq_none] at hnone
    rw [unwrapActual, hnone, Option.none_or, Option.bind_some, h, Option.getD_some]

theorem unwrapActual_of_readAsSection?_none {actual : Value} {sectionName : String}
    (h : readAsSection? actual sectionName = none) :
    unwrapActual actual (some sectionName) = (unwrap? actual).getD actual := by
  rw [readAsSection?] at h
  rw [unwrapActual, Option.bind_some]
  cases hu : unwrap? actual with
  | some inner => rw [Option.some_or]
  | none =>
    rw [hu, if_neg (by decide)] at h
    rw [h, Option.none_or]

/-- Without their envelopes, too, the two configurations are the same. -/
theorem compareUnwrapped_envelopes_of_same {expected actual : Value} (root : String)
    (hsame : same expected actual = true) (hfinite : AllFinite expected) :
    compareUnwrapped (unwrapExpected expected) ((unwrap? actual).getD actual) root true = [] :=
  congruent_same.compareUnwrapped_eq_nil (congruent_same.unwrapped ⟨hfinite, hsame⟩) root
    fun _ => Or.inl rfl

theorem readAsSection?_of_isEmpty {actual : Value} (sectionName : String)
    (h : actual.isEmpty = true) : readAsSection? actual sectionName = none := by
  cases actual with
  | map fields =>
    obtain rfl := List.isEmpty_iff.mp h
    rfl
  | _ => rfl

/-- A configuration with a section that stands for the whole is no envelope, and so is none
that is the same. -/
theorem unwrapExpected_of_readAsSection? {expected actual contents : Value} {sectionName : String}
    (hsame : same expected actual = true) (hfinite : AllFinite expected)
    (h : readAsSection? actual sectionName = some contents) :
    unwrapExpected expected = expected := by
  have hunwrap := congruent_same.unwrap? ⟨hfinite, hsame⟩
  rw [readAsSection?] at h
  split at h
  · cases h
  · rename_i hnone
    rw [Option.not_isSome_iff_eq_none.mp hnone] at hunwrap
    cases hu : unwrap? expected with
    | none => rw [unwrapExpected, hu, Option.getD_none]
    | some inner => rw [hu] at hunwrap; cases hunwrap

/-- A configuration is met by one that is the same, unless a section of it stands for the
whole: then exactly when that section meets the whole. -/
theorem compareConfigs_of_same {expected actual : Value} (sectionName : String)
    (hsame : same expected actual = true) (hfinite : AllFinite expected) :
    compareConfigs expected actual (some sectionName) true = [] ↔
      ∀ contents, readAsSection? actual sectionName = some contents →
        compareUnwrapped expected contents sectionName true = [] := by
  have hempty := Value.isEmpty_of_same hsame
  rw [compareConfigs.eq_def, ← hempty, Option.getD_some]
  cases he : expected.isEmpty with
  | true =>
    refine iff_of_true rfl fun contents hcontents => ?_
    rw [readAsSection?_of_isEmpty sectionName (hempty ▸ he)] at hcontents
    cases hcontents
  | false =>
    rw [if_neg (by decide), if_neg (by decide)]
    cases hr : readAsSection? actual sectionName with
    | none =>
      rw [unwrapActual_of_readAsSection?_none hr]
      refine iff_of_true (compareUnwrapped_envelopes_of_same sectionName hsame hfinite) ?_
      intro contents hcontents
      cases hcontents
    | some contents =>
      rw [unwrapActual_of_readAsSection? hr, unwrapExpected_of_readAsSection? hsame hfinite hr]
      constructor
      · intro h other hother
        obtain rfl := Option.some.inj hother
        exact h
      · intro h
        exact h contents rfl

/-- What is set under a key has to be met under that key. -/
theorem has_of_compareFields_eq_nil {expected actual : List (String × Value)} {path key : String}
    {value : Value} (h : compareFields expected actual path = [])
    (hget : Fields.get? expected key = some value) (hset : value.isEmpty = false) :
    Fields.has actual key = true := by
  rw [Fields.has, Option.isSome_iff_ne_none]
  intro hnone
  have hentry := compareFields_eq_nil_of_mem h (Fields.mem_of_get? hget)
  rw [compareFields_cons_entry [] path (by simp [hnone]), hnone, entryDifference?,
    if_neg (by simp [hset])] at hentry
  cases hentry

/-- A section that lacks an entry of its own name does not meet a whole that is the same as
the one it was taken from. -/
theorem compareUnwrapped_section_ne_nil {expected actual : Value} {sectionName : String}
    {fields : List (String × Value)} (root : String) (hw : Value.WellFormed expected)
    (hsame : same expected actual = true)
    (hsection : readAsSection? actual sectionName = some (.map fields)) (hset : fields ≠ [])
    (hown : Fields.has fields sectionName = false) :
    compareUnwrapped expected (.map fields) root true ≠ [] := by
  have hget : actual.get? sectionName = some (.map fields) := by
    rw [readAsSection?] at hsection
    split at hsection
    · cases hsection
    · exact hsection
  cases actual with
  | map others =>
    cases expected with
    | map whole =>
      rw [Value.get?] at hget
      obtain ⟨value, hvalue, hfound⟩ := Value.exists_get?_of_same hw.1 hsame hget
      have hvset : value.isEmpty = false := by
        rw [Value.isEmpty_of_same hfound]
        exact Value.isEmpty_map hset
      intro hnil
      rw [compareUnwrapped, if_pos rfl, List.append_nil] at hnil
      rw [has_of_compareFields_eq_nil hnil hvalue hvset] at hown
      cases hown
    | _ => simp [same] at hsame
  | _ => cases hget

end RadioAdmin.Compare
