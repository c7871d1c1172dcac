import RadioAdmin.Proofs.Compare.Configuration
import RadioAdmin.Proofs.Compare.Envelope
import RadioAdmin.Proofs.Value.Display

/-!
# A field more on the node

A comparison of fields looks up what is expected alone, so a field that nothing is expected of
changes nothing. It can still change what is read of the whole configuration: a new field is
itself read when it is the section that was asked for or the only field of an envelope, and an
envelope with a second field is one no longer. And an expected value that is no map may meet the
text of the whole map, which every field changes. Where an envelope hides that a side is unset,
nothing is said of the comparison.
-/
namespace RadioAdmin.Compare

/-- A comparison of fields depends on what is found under the expected keys alone. -/
theorem compareFields_congr {expected actual other : List (String × Value)}
    (h : ∀ key ∈ Fields.names expected, Fields.get? actual key = Fields.get? other key)
    (path : String) : compareFields expected actual path = compareFields expected other path := by
  induction expected with
  | nil => rfl
  | cons entry rest ih =>
    obtain ⟨key, value⟩ := entry
    rw [compareFields, compareFields, h key List.mem_cons_self,
      ih fun name hname => h name (List.mem_cons_of_mem key hname)]

theorem compareFields_insert {expected : List (String × Value)} {key : String}
    (actual : List (String × Value)) (value : Value) (path : String)
    (hkey : Fields.has expected key = false) :
    compareFields expected (Fields.insert actual key value) path =
      compareFields expected actual path := by
  refine compareFields_congr (fun name hname => ?_) path
  have hne : key ≠ name := by
    rintro rfl
    exact Fields.has_eq_false_iff.mp hkey hname
  rw [Fields.get?_insert, if_neg hne]

/-- In a key field no spelling of a key meets a map. -/
theorem leavesAgree_map (value : Value) (fields : List (String × Value)) (inKeyField : Bool) :
    leavesAgree value (.map fields) inKeyField =
      if inKeyField && KeyMaterial.isSpelling value then (KeyMaterial.normalize? value).isNone
      else coerced value (.map fields) := by
  have hmap : KeyMaterial.isSpelling (.map fields) = false := rfl
  have hnone : KeyMaterial.normalize? (.map fields) = none := rfl
  rw [leavesAgree, hmap, Bool.or_false, hnone]
  cases KeyMaterial.normalize? value <;> rfl

theorem coerced_flag_map (flag : Bool) {fields : List (String × Value)} (hset : fields ≠ []) :
    coerced (.bool flag) (.map fields) = flag := by
  have hempty : fields.isEmpty = false := by simpa using hset
  have htruthy : coerced (.bool flag) (.map fields) = (flag == !fields.isEmpty) := rfl
  rw [htruthy, hempty, Bool.not_false, beq_true]

theorem coerced_map {value : Value} (fields : List (String × Value))
    (hflag : ∀ flag, value ≠ .bool flag) :
    coerced value (.map fields) = (value.display == (Value.map fields).display) := by
  cases value with
  | bool flag => exact absurd rfl (hflag flag)
  | _ => rfl

/-- A set value that meets a set map meets it whatever is in the map, as a flag or as a list that
spells no key in a key field, or meets maps by their text. -/
theorem leavesAgree_map_cases {value : Value} {fields : List (String × Value)} {inKeyField : Bool}
    (hset : value.isEmpty = false) (hfields : fields ≠ [])
    (h : leavesAgree value (.map fields) inKeyField = true) :
    ((value = .bool true ∨ ∃ items, value = .list items) ∧
      ∀ others, others ≠ [] → leavesAgree value (.map others) inKeyField = true) ∨
    ∀ others, leavesAgree value (.map others) inKeyField =
      (value.display == (Value.map others).display) := by
  simp only [leavesAgree_map] at h ⊢
  by_cases hspelling : (inKeyField && KeyMaterial.isSpelling value) = true
  · simp only [if_pos hspelling] at h ⊢
    rw [Bool.and_eq_true] at hspelling
    cases value with
    | list items => exact .inl ⟨.inr ⟨items, rfl⟩, fun _ _ => h⟩
    | text _ | bytes _ =>
      rw [Value.isEmpty] at hset
      rw [KeyMaterial.normalize?, hset] at h
      cases h
    | _ => cases hspelling.2
  · simp only [if_neg hspelling] at h ⊢
    by_cases hflag : ∃ flag, value = .bool flag
    · obtain ⟨flag, rfl⟩ := hflag
      rw [coerced_flag_map flag hfields] at h
      subst h
      exact .inl ⟨.inl rfl, fun others hothers => coerced_flag_map true hothers⟩
    · rw [not_exists] at hflag
      exact .inr fun others => coerced_map others hflag

/-- Only a value that meets a map by its text notices more fields. -/
theorem leavesAgree_append_iff {value : Value} {fields more : List (String × Value)}
    {inKeyField : Bool} (hset : value.isEmpty = false) (hfields : fields ≠ []) (hmore : more ≠ [])
    (h : leavesAgree value (.map fields) inKeyField = true) :
    leavesAgree value (.map (fields ++ more)) inKeyField = true ↔
      value.display ≠ (Value.map fields).display := by
  rcases leavesAgree_map_cases hset hfields h with ⟨hwhole, hany⟩ | htext
  · refine iff_of_true (hany _ (List.append_ne_nil_of_left_ne_nil hfields more)) ?_
    rcases hwhole with rfl | ⟨items, rfl⟩
    · exact Value.display_bool_ne_map true fields
    · exact Value.display_list_ne_map items fields
  · rw [htext, beq_iff_eq] at h
    rw [htext, beq_iff_eq, h]
    exact iff_of_false (Value.display_map_append_ne hfields hmore) fun hne => hne rfl

/-- What is read of an actual configuration in place of the whole. -/
def readPart? (actual : Value) (sectionName : Option String) : Option Value :=
  (unwrap? actual).or (sectionName.bind actual.get?)

theorem unwrapActual_eq (actual : Value) (sectionName : Option String) :
    unwrapActual actual sectionName = (readPart? actual sectionName).getD actual := rfl

/-- A new field is what is read when it is the section asked for, or alone in an envelope. -/
def ReadsAdded (actual : List (String × Value)) (key : String) (sectionName : Option String) :
    Prop :=
  sectionName = some key ∨ actual = [] ∧ key ∈ envelopeKeys

/-- A field more closes an envelope, whose contents are then read only as the section asked for. -/
def ClosesEnvelope (actual : List (String × Value)) (sectionName : Option String) : Prop :=
  ∃ wrapper inner, actual = [(wrapper, inner)] ∧ wrapper ∈ envelopeKeys ∧
    sectionName ≠ some wrapper

section

variable {actual : List (String × Value)} {key : String} {sectionName : Option String}

theorem exists_of_unwrap? {contents : Value} (h : unwrap? (.map actual) = some contents) :
    ∃ wrapper, actual = [(wrapper, contents)] ∧ wrapper ∈ envelopeKeys := by
  cases actual with
  | nil => cases h
  | cons first rest =>
    obtain ⟨wrapper, inner⟩ := first
    cases rest with
    | cons second more => cases h
    | nil =>
      rw [unwrap?_singleton] at h
      split at h
      · rename_i hwrapper
        obtain rfl := Option.some.inj h
        exact ⟨wrapper, rfl, hwrapper⟩
      · cases h

/-- A field that joins others is in no envelope. -/
theorem unwrap?_insert (value : Value) (hnew : Fields.has actual key = false)
    (hset : actual ≠ []) : unwrap? (.map (Fields.insert actual key value)) = none := by
  rw [Fields.insert_of_notMem value (Fields.has_eq_false_iff.mp hnew)]
  cases actual with
  | nil => exact absurd rfl hset
  | cons first rest => cases rest <;> rfl

theorem readPart?_insert_of_readsAdded (value : Value) (hnew : Fields.has actual key = false)
    (h : ReadsAdded actual key sectionName) :
    readPart? (.map (Fields.insert actual key value)) sectionName = some value := by
  have hasked : sectionName = some key →
      sectionName.bind (Value.map (Fields.insert actual key value)).get? = some value := by
    rintro rfl
    rw [Option.bind_some, Value.get?, Fields.get?_insert, if_pos rfl]
  rw [readPart?]
  by_cases hempty : actual = []
  · subst hempty
    rw [Fields.insert, unwrap?_singleton]
    split
    · rw [Option.some_or]
    · rename_i hkey
      rw [Option.none_or]
      exact hasked (h.resolve_right fun hother => hkey hother.2)
  · rw [unwrap?_insert value hnew hempty, Option.none_or]
    exact hasked (h.resolve_right fun hother => hempty hother.1)

theorem readPart?_insert (value : Value) (hnew : Fields.has actual key = false)
    (h : ¬ ReadsAdded actual key sectionName) :
    readPart? (.map (Fields.insert actual key value)) sectionName =
      sectionName.bind (Fields.get? actual) := by
  obtain ⟨hasked, hwrapped⟩ := not_or.mp h
  have hunwrap : unwrap? (.map (Fields.insert actual key value)) = none := by
    by_cases hempty : actual = []
    · subst hempty
      rw [Fields.insert, unwrap?_singleton, if_neg fun hkey => hwrapped ⟨rfl, hkey⟩]
    · exact unwrap?_insert value hnew hempty
  rw [readPart?, hunwrap, Option.none_or]
  cases sectionName with
  | none => rfl
  | some asked =>
    rw [Option.bind_some, Option.bind_some, Value.get?, Fields.get?_insert,
      if_neg fun hkey => hasked (congrArg some hkey.symm)]

theorem readPart?_of_not_closesEnvelope (h : ¬ ClosesEnvelope actual sectionName) :
    readPart? (.map actual) sectionName = sectionName.bind (Fields.get? actual) := by
  rw [readPart?]
  cases hunwrap : unwrap? (.map actual) with
  | none =>
    rw [Option.none_or]
    rfl
  | some contents =>
    obtain ⟨wrapper, rfl, hwrapper⟩ := exists_of_unwrap? hunwrap
    have hasked : sectionName = some wrapper := by
      by_contra hne
      exact h ⟨wrapper, contents, rfl, hwrapper, hne⟩
    rw [hasked, Option.some_or, Option.bind_some, Fields.get?_cons_self]

/-- Beside another field the contents of an envelope are no longer read. -/
theorem readPart?_insert_of_closesEnvelope (value : Value) (hnew : Fields.has actual key = false)
    (h : ¬ ReadsAdded actual key sectionName) (hcloses : ClosesEnvelope actual sectionName) :
    readPart? (.map (Fields.insert actual key value)) sectionName = none := by
  rw [readPart?_insert value hnew h]
  obtain ⟨wrapper, inner, rfl, -, hasked⟩ := hcloses
  cases sectionName with
  | none => rfl
  | some asked => exact Fields.get?_cons_of_ne inner [] fun he => hasked (congrArg some he.symm)

end

theorem compareUnwrapped_eq_nil_iff {expected : Value} (actual : Value) (root : String)
    (hmap : ∀ fields, expected ≠ .map fields) :
    compareUnwrapped expected actual root true = [] ↔
      valuesAgree expected actual root false = true := by
  refine compareUnwrapped_mixed_iff root ?_
  rintro ⟨fields, others, hfields, -⟩
  exact hmap fields hfields

/-- A value that is no map meets a set map as a leaf. -/
theorem compareUnwrapped_leaf_iff {expected : Value} {actual : List (String × Value)}
    (root : String) (hmap : ∀ fields, expected ≠ .map fields) (hactual : actual ≠ []) :
    compareUnwrapped expected (.map actual) root true = [] ↔
      expected.isEmpty = false ∧
        leavesAgree expected (.map actual) (KeyMaterial.isKeyField root) = true := by
  have hset : (Value.map actual).isEmpty = false := Value.isEmpty_map hactual
  rw [compareUnwrapped_eq_nil_iff _ _ hmap]
  cases hunset : expected.isEmpty with
  | true =>
    rw [valuesAgree_unset root false (.inl hunset), hunset, hset]
    exact iff_of_false (by decide) fun h => by cases h.1
  | false =>
    rw [valuesAgree_mixed root false hunset hset (fun a _ h => absurd h (hmap a))
      (fun _ _ _ h => by cases h), Bool.false_or, and_iff_right rfl]

theorem compareUnwrapped_append_iff {expected : Value} {actual more : List (String × Value)}
    (root : String) (hmap : ∀ fields, expected ≠ .map fields) (hactual : actual ≠ [])
    (hmore : more ≠ []) (hmet : compareUnwrapped expected (.map actual) root true = []) :
    compareUnwrapped expected (.map (actual ++ more)) root true = [] ↔
      expected.display ≠ (Value.map actual).display := by
  obtain ⟨hset, hagree⟩ := (compareUnwrapped_leaf_iff root hmap hactual).mp hmet
  rw [compareUnwrapped_leaf_iff root hmap (List.append_ne_nil_of_left_ne_nil hactual more),
    and_iff_right hset]
  exact leavesAgree_append_iff hset hactual hmore hagree

/-- How two sides without their envelopes meet: nothing is expected, or a map that holds nothing is
expected of an unset side, or the two do not differ as maps or, if one is no map, as values. -/
def Meets (expected actual : Value) (root : String) : Prop :=
  expected.isEmpty = true ∨ HoldsNothing expected ∧ actual.isEmpty = true ∨
    compareUnwrapped expected actual root true = []

/-- Two sides meet because one of them is unset, but are not both maps. Whether a side is unset is
asked while it is in its envelope, so the comparison of what is inside reports a difference here. -/
def UnsetApart (expected actual : Value) : Prop :=
  ¬ AreMaps expected actual ∧
    (expected.isEmpty = true ∧ actual.isEmpty = false ∨
      HoldsNothing expected ∧ actual.isEmpty = true)

theorem compareUnwrapped_unset {expected actual : Value} (root : String)
    (hexpected : expected.isEmpty = true) (hactual : actual.isEmpty = true) :
    compareUnwrapped expected actual root true = [] := by
  by_cases hmaps : AreMaps expected actual
  · obtain ⟨fields, others, rfl, rfl⟩ := hmaps
    obtain rfl := List.isEmpty_iff.mp hexpected
    rw [compareUnwrapped_maps, compareFields_nil]
  · rw [compareUnwrapped_mixed_iff root hmaps, valuesAgree_unset root false (.inl hexpected),
      hexpected, hactual, Bool.and_true]

theorem compareUnwrapped_eq_nil_iff_meets {expected actual : Value} (root : String)
    (hapart : ¬ UnsetApart expected actual) :
    compareUnwrapped expected actual root true = [] ↔ Meets expected actual root := by
  refine ⟨fun h => .inr (.inr h), ?_⟩
  rintro (hexpected | ⟨hnothing, hactual⟩ | h)
  · cases hactual : actual.isEmpty with
    | true => exact compareUnwrapped_unset root hexpected hactual
    | false =>
      rw [compareUnwrapped_of_unset_expected root hexpected hactual]
      by_contra hmaps
      exact hapart ⟨hmaps, .inl ⟨hexpected, hactual⟩⟩
  · have hexpected : expected.isEmpty = false := by
      obtain ⟨fields, rfl, hset, -⟩ := hnothing
      exact Value.isEmpty_map hset
    rw [compareUnwrapped_of_unset_actual root hexpected hactual, and_iff_right hnothing]
    by_contra hmaps
    exact hapart ⟨hmaps, .inr ⟨hnothing, hactual⟩⟩
  · exact h

variable {expected actual : List (String × Value)} {sectionName : Option String}

theorem configsAgree_iff (hset : actual ≠ []) :
    configsAgree (.map expected) (.map actual) sectionName = true ↔
      expected = [] ∨ compareUnwrapped (unwrapExpected (.map expected))
        (unwrapActual (.map actual) sectionName) (sectionName.getD "") true = [] := by
  have hactual : (Value.map actual).isEmpty = false := Value.isEmpty_map hset
  cases expected with
  | nil => exact iff_of_true (configsAgree_of_unset_expected rfl) (.inl rfl)
  | cons entry rest =>
    rw [or_iff_right (List.cons_ne_nil entry rest), configsAgree_of_set rfl hactual]

theorem configsAgree_iff_meets (hset : actual ≠ [])
    (hapart : expected ≠ [] →
      ¬ UnsetApart (unwrapExpected (.map expected)) (unwrapActual (.map actual) sectionName)) :
    configsAgree (.map expected) (.map actual) sectionName = true ↔
      Meets (unwrapExpected (.map expected)) (unwrapActual (.map actual) sectionName)
        (sectionName.getD "") := by
  rw [configsAgree_iff hset]
  by_cases hexpected : expected = []
  · subst hexpected
    exact iff_of_true (.inl rfl) (.inl rfl)
  · rw [or_iff_right hexpected]
    exact compareUnwrapped_eq_nil_iff_meets _ (hapart hexpected)

/-- An unset configuration meets only what is unset. -/
theorem isEmpty_of_configsAgree_nil
    (h : configsAgree (.map expected) (.map []) sectionName = true) :
    ∀ entry ∈ expected, entry.2.isEmpty = true := by
  cases expected with
  | nil => exact fun _ hentry => absurd hentry List.not_mem_nil
  | cons first rest =>
    exact (allMissing_eq_nil_iff (first :: rest)).mp (List.isEmpty_iff.mp h)

theorem has_unwrapExpected {fields : List (String × Value)} {key : String}
    (hexpected : Fields.has expected key = false)
    (hinner : ∀ inner, unwrap? (.map expected) = some (.map inner) → Fields.has inner key = false)
    (h : unwrapExpected (.map expected) = .map fields) : Fields.has fields key = false := by
  rw [unwrapExpected] at h
  cases hunwrap : unwrap? (.map expected) with
  | none =>
    rw [hunwrap, Option.getD_none] at h
    obtain rfl := Value.map.inj h
    exact hexpected
  | some inner =>
    rw [hunwrap, Option.getD_some] at h
    exact hinner fields (hunwrap.trans (congrArg some h))

/-- What an unset configuration meets is a map of unset fields, or unset itself. -/
theorem unwrapExpected_of_unset (hunset : ∀ entry ∈ expected, entry.2.isEmpty = true) :
    (∃ fields, unwrapExpected (.map expected) = .map fields ∧
      ∀ entry ∈ fields, entry.2.isEmpty = true) ∨
    (∀ fields, unwrapExpected (.map expected) ≠ .map fields) ∧
      (unwrapExpected (.map expected)).isEmpty = true := by
  rw [unwrapExpected]
  cases hunwrap : unwrap? (.map expected) with
  | none => exact .inl ⟨expected, rfl, hunset⟩
  | some inner =>
    obtain ⟨wrapper, rfl, -⟩ := exists_of_unwrap? hunwrap
    have hempty : inner.isEmpty = true := hunset (wrapper, inner) List.mem_cons_self
    by_cases hmap : ∃ fields, inner = .map fields
    · obtain ⟨fields, rfl⟩ := hmap
      obtain rfl := List.isEmpty_iff.mp hempty
      exact .inl ⟨[], rfl, fun _ hentry => absurd hentry List.not_mem_nil⟩
    · exact .inr ⟨fun fields h => hmap ⟨fields, h⟩, hempty⟩

section

variable {key : String} (value : Value)

/-- A field more is not noticed where fields are compared with the whole. -/
theorem compareUnwrapped_insert_of_map {fields : List (String × Value)} (root : String)
    (hfields : unwrapExpected (.map expected) = .map fields)
    (hexpected : Fields.has expected key = false)
    (hinner : ∀ inner, unwrap? (.map expected) = some (.map inner) → Fields.has inner key = false)
    (hset : expected ≠ []) (hwhole : readPart? (.map actual) sectionName = none)
    (hagree : configsAgree (.map expected) (.map actual) sectionName = true) :
    compareUnwrapped (.map fields) (.map (Fields.insert actual key value)) root true = [] := by
  rw [compareUnwrapped_maps,
    compareFields_insert actual value "" (has_unwrapExpected hexpected hinner hfields)]
  by_cases hactual : actual = []
  · subst hactual
    rw [compareFields_unset_iff]
    rcases unwrapExpected_of_unset (isEmpty_of_configsAgree_nil hagree) with
      ⟨others, hothers, hunset⟩ | ⟨hmap, -⟩
    · rw [hfields] at hothers
      obtain rfl := Value.map.inj hothers
      exact hunset
    · exact absurd hfields (hmap fields)
  · have hmet := ((configsAgree_iff hactual).mp hagree).resolve_left hset
    rw [unwrapActual_eq, hwhole, Option.getD_none, hfields, compareUnwrapped_maps] at hmet
    exact hmet

/-- A value that is compared with the whole notices a field more if it is the text of the whole. -/
theorem compareUnwrapped_insert_of_leaf (hnew : Fields.has actual key = false)
    (hmap : ∀ fields, unwrapExpected (.map expected) ≠ .map fields)
    (hopened : (unwrapExpected (.map expected)).isEmpty = false)
    (hwhole : readPart? (.map actual) sectionName = none)
    (hagree : configsAgree (.map expected) (.map actual) sectionName = true) :
    compareUnwrapped (unwrapExpected (.map expected)) (.map (Fields.insert actual key value))
        (sectionName.getD "") true = [] ↔
      (unwrapExpected (.map expected)).display ≠ (Value.map actual).display := by
  have hset : expected ≠ [] := by
    rintro rfl
    exact hmap [] rfl
  have hactual : actual ≠ [] := by
    rintro rfl
    rcases unwrapExpected_of_unset (isEmpty_of_configsAgree_nil hagree) with
      ⟨fields, hfields, -⟩ | ⟨-, hunset⟩
    · exact hmap fields hfields
    · exact Bool.false_ne_true (hopened.symm.trans hunset)
  have hmet := ((configsAgree_iff hactual).mp hagree).resolve_left hset
  rw [unwrapActual_eq, hwhole, Option.getD_none] at hmet
  rw [Fields.insert_of_notMem value (Fields.has_eq_false_iff.mp hnew)]
  exact compareUnwrapped_append_iff _ hmap hactual (List.cons_ne_nil _ _) hmet

/-- A field that leaves what is read as it is goes unnoticed, except by a value that was met by the
text of the whole. -/
theorem configsAgree_insert_kept (hexpected : Fields.has expected key = false)
    (hinner : ∀ inner, unwrap? (.map expected) = some (.map inner) → Fields.has inner key = false)
    (hnew : Fields.has actual key = false)
    (hagree : configsAgree (.map expected) (.map actual) sectionName = true)
    (hapart : expected ≠ [] → ¬ UnsetApart (unwrapExpected (.map expected))
      (unwrapActual (.map (Fields.insert actual key value)) sectionName))
    (hadded : ¬ ReadsAdded actual key sectionName)
    (hcloses : ¬ ClosesEnvelope actual sectionName) :
    configsAgree (.map expected) (.map (Fields.insert actual key value)) sectionName = true ↔
      (∃ fields, unwrapExpected (.map expected) = .map fields) ∨
      (readPart? (.map actual) sectionName).isSome = true ∨
      (unwrapExpected (.map expected)).display ≠ (Value.map actual).display := by
  have hwhole : Fields.insert actual key value ≠ [] := Fields.insert_ne_nil actual key value
  rw [configsAgree_iff hwhole]
  by_cases hset : expected = []
  · subst hset
    exact iff_of_true (.inl rfl) (.inl ⟨[], rfl⟩)
  have hread : readPart? (.map (Fields.insert actual key value)) sectionName =
      readPart? (.map actual) sectionName := by
    rw [readPart?_insert value hnew hadded, readPart?_of_not_closesEnvelope hcloses]
  have hnoticed := hapart hset
  rw [unwrapActual_eq, hread] at hnoticed
  rw [or_iff_right hset, unwrapActual_eq, hread]
  cases hpart : readPart? (.map actual) sectionName with
  | some part =>
    have hactual : actual ≠ [] := by
      rintro rfl
      cases sectionName <;> cases hpart
    have hmet := ((configsAgree_iff hactual).mp hagree).resolve_left hset
    rw [unwrapActual_eq, hpart] at hmet
    exact iff_of_true hmet (.inr (.inl rfl))
  | none =>
    rw [hpart, Option.getD_none] at hnoticed
    rw [Option.getD_none, Option.isSome_none, or_iff_right Bool.false_ne_true]
    by_cases hmap : ∃ fields, unwrapExpected (.map expected) = .map fields
    · refine iff_of_true ?_ (.inl hmap)
      obtain ⟨fields, hfields⟩ := hmap
      rw [hfields]
      exact compareUnwrapped_insert_of_map value _ hfields hexpected hinner hset hpart hagree
    · rw [or_iff_right hmap]
      rw [not_exists] at hmap
      have hmaps : ¬ AreMaps (unwrapExpected (.map expected))
          (.map (Fields.insert actual key value)) :=
        fun ⟨fields, _, hfields, _⟩ => hmap fields hfields
      have hopened : (unwrapExpected (.map expected)).isEmpty = false := by
        by_contra hunset
        exact hnoticed ⟨hmaps, .inl ⟨by simpa using hunset, Value.isEmpty_map hwhole⟩⟩
      exact compareUnwrapped_insert_of_leaf value hnew hmap hopened hpart hagree

end

/-- A field that nothing is expected of is read in place of the whole, or closes the envelope that
was read, or leaves what is read as it is. In the last case the configurations go on agreeing
unless an expected value that is no map was met by the whole through its text. It is left open what
should come of two sides that are unset apart. -/
theorem configsAgree_insert (expected actual : List (String × Value)) (key : String)
    (value : Value) (sectionName : Option String)
    (hexpected : Fields.has expected key = false)
    (hinner : ∀ inner, unwrap? (.map expected) = some (.map inner) → Fields.has inner key = false)
    (hnew : Fields.has actual key = false)
    (hagree : configsAgree (.map expected) (.map actual) sectionName = true) :
    let opened := unwrapExpected (.map expected)
    let whole : Value := .map (Fields.insert actual key value)
    let root := sectionName.getD ""
    let agree := configsAgree (.map expected) whole sectionName
    (expected ≠ [] → ¬ UnsetApart opened (unwrapActual whole sectionName)) →
    (ReadsAdded actual key sectionName → (agree = true ↔ Meets opened value root)) ∧
    (¬ ReadsAdded actual key sectionName → ClosesEnvelope actual sectionName →
      (agree = true ↔ Meets opened whole root)) ∧
    (¬ ReadsAdded actual key sectionName → ¬ ClosesEnvelope actual sectionName →
      (agree = true ↔
        (∃ fields, opened = .map fields) ∨
        (readPart? (.map actual) sectionName).isSome = true ∨
        opened.display ≠ (Value.map actual).display)) := by
  intro opened whole root agree hapart
  have hmeets : agree = true ↔ Meets opened (unwrapActual whole sectionName) root :=
    configsAgree_iff_meets (Fields.insert_ne_nil actual key value) hapart
  refine ⟨fun hadded => ?_, fun hadded hcloses => ?_, ?_⟩
  · rw [hmeets, unwrapActual_eq, readPart?_insert_of_readsAdded value hnew hadded, Option.getD_some]
  · rw [hmeets, unwrapActual_eq, readPart?_insert_of_closesEnvelope value hnew hadded hcloses,
      Option.getD_none]
  · exact configsAgree_insert_kept value hexpected hinner hnew hagree hapart

/-- The name of another section is an ordinary field beside others. -/
theorem configsAgree_insert_power :
    let expected : List (String × Value) := [("lora", .map [("region", .int 1)])]
    let actual : List (String × Value) := [("region", .int 1), ("tx", .int 2)]
    let whole : Value := .map (Fields.insert actual "power" (.int 30))
    Fields.has expected "power" = false ∧ Fields.has actual "power" = false ∧
    configsAgree (.map expected) (.map actual) (some "lora") = true ∧
    ¬ UnsetApart (unwrapExpected (.map expected)) (unwrapActual whole (some "lora")) ∧
    configsAgree (.map expected) whole (some "lora") = true := by
  intro expected actual whole
  have hexpected : Fields.has expected "power" = false := by decide +kernel
  have hactual : Fields.has actual "power" = false := by decide +kernel
  have hagree : configsAgree (.map expected) (.map actual) (some "lora") = true := by
    decide +kernel
  have hapart : ¬ UnsetApart (unwrapExpected (.map expected)) (unwrapActual whole (some "lora")) :=
    fun h => h.1 ⟨_, _, rfl, rfl⟩
  have hadded := configsAgree_insert expected actual "power" (.int 30) (some "lora") hexpected
    (by rintro inner h; cases h; decide +kernel) hactual hagree fun _ => hapart
  refine ⟨hexpected, hactual, hagree, hapart, (hadded.2.2 ?_ ?_).mpr (.inl ⟨_, rfl⟩)⟩
  · rintro (h | ⟨h, -⟩)
    · exact absurd h (by decide)
    · exact List.cons_ne_nil _ _ h
  · rintro ⟨wrapper, inner, h, -⟩
    exact List.cons_ne_nil _ _ (List.cons.inj h).2

/-- An envelope that is met by what is in it is no longer opened beside another field. -/
theorem configsAgree_closed_envelope :
    let expected : List (String × Value) := [("role", .int 1)]
    let actual : List (String × Value) := [("device", .map expected)]
    Fields.has expected "meta" = false ∧ unwrap? (.map expected) = none ∧
    Fields.has actual "meta" = false ∧
    configsAgree (.map expected) (.map actual) none = true ∧
    configsAgree (.map expected) (.map (Fields.insert actual "meta" (.int 1))) none = false :=
  ⟨by decide +kernel, rfl, by decide +kernel, by decide +kernel, by decide +kernel⟩

end RadioAdmin.Compare
