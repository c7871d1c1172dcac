import RadioAdmin.Proofs.Compare.Added
import RadioAdmin.Proofs.Compare.Unmet

/-!
# The names of differences

A record is named by the keys of its position, joined with dots. Where every key is a segment the
position can be read back from the name, so each record of a comparison has a name of its own: two
unmet positions never share one, and a field that only the node has never shares the name of a
position further down.
-/
namespace RadioAdmin

namespace Value

mutual

/-- The keys of all maps in a value, from all depths. -/
def keys : Value → List String
  | .list items => keysOfItems items
  | .map fields => keysOfFields fields
  | _ => []

def keysOfItems : List Value → List String
  | [] => []
  | item :: rest => keys item ++ keysOfItems rest

def keysOfFields : List (String × Value) → List String
  | [] => []
  | (key, content) :: rest => key :: keys content ++ keysOfFields rest

end

variable {fields : List (String × Value)} {value found : Value} {path : List String}

theorem keys_map (fields : List (String × Value)) :
    keys (.map fields) = fields.flatMap fun entry => entry.1 :: entry.2.keys := by
  rw [keys]
  induction fields with
  | nil => rfl
  | cons entry rest ih => rw [keysOfFields, ih, List.flatMap_cons]

theorem names_subset_keys (fields : List (String × Value)) :
    Fields.names fields ⊆ keys (.map fields) := by
  intro key hkey
  obtain ⟨entry, hentry, rfl⟩ := List.mem_map.mp hkey
  rw [keys_map]
  exact List.mem_flatMap.mpr ⟨entry, hentry, List.mem_cons_self⟩

theorem keys_subset_of_get? {key : String} (h : Fields.get? fields key = some value) :
    value.keys ⊆ keys (.map fields) := by
  intro other hother
  rw [keys_map]
  exact List.mem_flatMap.mpr ⟨_, Fields.mem_of_get? h, List.mem_cons_of_mem key hother⟩

theorem keys_subset_of_at? (h : value.at? path = some found) : found.keys ⊆ value.keys := by
  induction path generalizing value with
  | nil => exact Option.some.inj h ▸ List.Subset.refl value.keys
  | cons key path ih =>
    obtain ⟨fields, rfl, -⟩ := exists_map_of_at?_cons h
    obtain ⟨below, hbelow, hat⟩ := exists_of_at?_cons h
    exact List.Subset.trans (ih hat) (keys_subset_of_get? hbelow)

/-- A path that leads to something is made of keys of the value. -/
theorem path_subset_keys (h : value.at? path = some found) : path ⊆ value.keys := by
  induction path generalizing value with
  | nil => exact List.nil_subset _
  | cons key path ih =>
    obtain ⟨fields, rfl, -⟩ := exists_map_of_at?_cons h
    obtain ⟨below, hbelow, hat⟩ := exists_of_at?_cons h
    have hkey : key ∈ Fields.names fields := Fields.mem_names_of_get? hbelow
    exact List.cons_subset.mpr
      ⟨names_subset_keys fields hkey, List.Subset.trans (ih hat) (keys_subset_of_get? hbelow)⟩

end Value

namespace Compare

open FieldPath (IsSegment below)

variable {expected actual : List (String × Value)}

/-- The names of the records of two maps are those of different paths through the expected one. -/
theorem exists_paths_compareFields (actual : List (String × Value))
    (hw : Value.WellFormed (.map expected)) :
    ∃ paths : List (List String),
      (compareFields expected actual "").map Difference.field = paths.map (below "") ∧
      paths.Nodup ∧
      ∀ path ∈ paths, path ≠ [] ∧ ∃ found, (Value.map expected).at? path = some found := by
  obtain ⟨found, hfound, hmem, hsorted⟩ := exists_located expected actual "" hw
  refine ⟨found.map Prod.fst, ?_, ?_, ?_⟩
  · rw [hfound, List.map_map, List.map_map]
    refine List.map_congr_left ?_
    rintro ⟨path, d⟩ hd
    obtain ⟨-, key, value, -, -, hunmet⟩ := (hmem path d).mp hd
    exact field_of_unmet hunmet
  · exact List.nodup_iff_pairwise_ne.mpr (hsorted.imp fun h => h.ne hw)
  · intro path hpath
    obtain ⟨⟨path, d⟩, hd, rfl⟩ := List.mem_map.mp hpath
    obtain ⟨hpos, -⟩ := (hmem path d).mp hd
    exact ⟨hpos.nonempty, hpos.present⟩

theorem map_field_allMissing (fields : List (String × Value)) :
    (allMissing fields).map Difference.field =
      Fields.names (fields.filter fun field => !field.2.isEmpty) := by
  rw [allMissing, List.map_map]
  rfl

theorem map_field_extras (expected actual : List (String × Value)) :
    (extras expected actual).map Difference.field =
      Fields.names (actual.filter fun field =>
        !Fields.has expected field.1 && !field.2.isEmpty) := by
  rw [extras, List.map_map]
  rfl

theorem nodup_field_extras (expected : List (String × Value)) (hd : Fields.Distinct actual) :
    ((extras expected actual).map Difference.field).Nodup := by
  rw [map_field_extras]
  exact Fields.distinct_filter _ hd

/-- What only the node has is named by a key of its map that the expected map does not have. -/
theorem names_of_mem_field_extras {key : String}
    (h : key ∈ (extras expected actual).map Difference.field) :
    key ∈ Fields.names actual ∧ key ∉ Fields.names expected := by
  rw [map_field_extras] at h
  obtain ⟨entry, hentry, rfl⟩ := List.mem_map.mp h
  obtain ⟨hmem, hextra⟩ := List.mem_filter.mp hentry
  rw [Bool.and_eq_true, Bool.not_eq_true'] at hextra
  exact ⟨List.mem_map_of_mem hmem, Fields.has_eq_false_iff.mp hextra.1⟩

/-- The names of the fields that only the actual map has are those of different paths, each a key
that is not expected. -/
theorem exists_paths_extras (expected : List (String × Value)) (hd : Fields.Distinct actual) :
    ∃ paths : List (List String),
      (extras expected actual).map Difference.field = paths.map (below "") ∧
      paths.Nodup ∧
      ∀ path ∈ paths, ∃ key, path = [key] ∧ key ∈ Fields.names actual ∧
        key ∉ Fields.names expected := by
  refine ⟨((extras expected actual).map Difference.field).map fun key => [key], ?_, ?_, ?_⟩
  · rw [List.map_map]
    exact (List.map_id _).symm
  · exact (nodup_field_extras expected hd).map fun key other he => (List.cons.inj he).1
  · intro path hpath
    obtain ⟨key, hkey, rfl⟩ := List.mem_map.mp hpath
    exact ⟨key, rfl, names_of_mem_field_extras hkey⟩

/-- The records of two maps have names of their own, those of fields that only the node has
included. -/
theorem nodup_fields_strict (hexpected : Value.WellFormed (.map expected))
    (hactual : Value.WellFormed (.map actual))
    (hkeys : ∀ key ∈ (Value.map expected).keys, IsSegment key)
    (hothers : ∀ key ∈ (Value.map actual).keys, IsSegment key) :
    ((compareFields expected actual "" ++ extras expected actual).map
      Difference.field).Nodup := by
  obtain ⟨paths, hfields, hnodup, hpaths⟩ := exists_paths_compareFields actual hexpected
  obtain ⟨extraPaths, hextras, hnodup', hextraPaths⟩ := exists_paths_extras expected hactual.1
  -- The path of such a field is one key, and no position begins with it.
  have hapart : paths.Disjoint extraPaths := by
    intro path hpath hextra
    obtain ⟨key, rfl, -, hnew⟩ := hextraPaths path hextra
    obtain ⟨-, found, hfound⟩ := hpaths [key] hpath
    obtain ⟨_, hget, -⟩ := Value.exists_of_at?_cons hfound
    exact hnew (Fields.mem_names_of_get? hget)
  rw [List.map_append, hfields, hextras, ← List.map_append]
  refine FieldPath.nodup_map_below (hnodup.append hnodup' hapart) ?_
  intro path hpath
  rcases List.mem_append.mp hpath with hpath | hextra
  · obtain ⟨hset, found, hfound⟩ := hpaths path hpath
    exact ⟨hset, fun key hkey => hkeys key (Value.path_subset_keys hfound hkey)⟩
  · obtain ⟨key, rfl, hkey, -⟩ := hextraPaths path hextra
    have hsegment : IsSegment key := hothers key (Value.names_subset_keys actual hkey)
    exact ⟨List.cons_ne_nil key [], List.forall_mem_singleton.mpr hsegment⟩

theorem exists_at?_of_unwrap? {value contents : Value} (h : unwrap? value = some contents) :
    ∃ path, value.at? path = some contents := by
  cases value with
  | map fields =>
    obtain ⟨wrapper, rfl, -⟩ := exists_of_unwrap? h
    exact ⟨[wrapper], Value.at?_cons (Fields.get?_cons_self ..) []⟩
  | _ => cases h

/-- What is compared lies at some path in each side. -/
theorem exists_at?_unwrapExpected (expected : Value) :
    ∃ path, expected.at? path = some (unwrapExpected expected) := by
  cases h : unwrap? expected with
  | none => exact ⟨[], by rw [unwrapExpected, h]; rfl⟩
  | some contents =>
    rw [unwrapExpected, h]
    exact exists_at?_of_unwrap? h

theorem exists_at?_unwrapActual (actual : Value) (sectionName : Option String) :
    ∃ path, actual.at? path = some (unwrapActual actual sectionName) := by
  cases h : unwrap? actual with
  | some contents =>
    rw [unwrapActual, h]
    exact exists_at?_of_unwrap? h
  | none =>
    cases hsection : sectionName.bind actual.get? with
    | none => exact ⟨[], by rw [unwrapActual, h, hsection]; rfl⟩
    | some contents =>
      obtain ⟨key, -, hget⟩ := Option.bind_eq_some_iff.mp hsection
      refine ⟨[key], ?_⟩
      rw [unwrapActual, h, hsection, Value.at?, hget]
      rfl

/-- Where one side is no map there is one record at most. -/
theorem nodup_fields_mixed {expected actual : Value} (root : String) (allowUndefined : Bool)
    (hmaps : ¬ AreMaps expected actual) :
    ((compareUnwrapped expected actual root allowUndefined).map Difference.field).Nodup := by
  rw [compareUnwrapped.eq_def]
  split
  · exact absurd ⟨_, _, rfl, rfl⟩ hmaps
  · split
    · exact List.nodup_nil
    · split <;> exact List.nodup_singleton _

theorem nodup_fields_unwrapped {expected actual : Value} (root : String) (allowUndefined : Bool)
    (hexpected : expected.WellFormed) (hactual : actual.WellFormed)
    (hkeys : ∀ key ∈ expected.keys, IsSegment key) (hothers : ∀ key ∈ actual.keys, IsSegment key) :
    ((compareUnwrapped expected actual root allowUndefined).map Difference.field).Nodup := by
  by_cases hmaps : AreMaps expected actual
  · obtain ⟨fields, others, rfl, rfl⟩ := hmaps
    have hstrict := nodup_fields_strict hexpected hactual hkeys hothers
    rw [compareUnwrapped]
    cases allowUndefined with
    | false => exact hstrict
    | true =>
      rw [if_pos rfl, List.append_nil]
      exact hstrict.sublist ((List.sublist_append_left ..).map _)
  · exact nodup_fields_mixed root allowUndefined hmaps

/-- Where the keys of both sides are segments at every depth, no two records of a comparison name
the same field. -/
theorem compareConfigs_fields_nodup (expected actual : Value) (sectionName : Option String)
    (allowUndefined : Bool) (hexpected : expected.WellFormed) (hactual : actual.WellFormed)
    (hkeys : ∀ key ∈ expected.keys, IsSegment key)
    (hothers : ∀ key ∈ actual.keys, IsSegment key) :
    ((compareConfigs expected actual sectionName allowUndefined).map Difference.field).Nodup := by
  rw [compareConfigs.eq_def]
  split
  · exact List.nodup_nil
  · split
    · cases expected with
      | map fields =>
        show ((allMissing fields).map Difference.field).Nodup
        rw [map_field_allMissing]
        exact Fields.distinct_filter _ hexpected.1
      | _ => exact List.nodup_singleton _
    · obtain ⟨path, hpath⟩ := exists_at?_unwrapExpected expected
      obtain ⟨other, hother⟩ := exists_at?_unwrapActual actual sectionName
      exact nodup_fields_unwrapped _ allowUndefined (Value.wellFormed_of_at? hexpected hpath)
        (Value.wellFormed_of_at? hactual hother)
        (fun key hkey => hkeys key (Value.keys_subset_of_at? hpath hkey))
        (fun key hkey => hothers key (Value.keys_subset_of_at? hother hkey))

/-- A field that is expected two maps down and one of the same last key that only the node has,
both below the section that is asked for. -/
theorem compareConfigs_fields_nodup_lora :
    let expected : Value := .map [("lora", .map [("region", .int 1),
      ("radio", .map [("tx", .int 30), ("rx", .int 7)]), ("owner", .text "a")])]
    let actual : Value := .map [("lora", .map [("radio", .map [("tx", .int 20)]),
      ("region", .int 2), ("tx", .int 5)]), ("meta", .map [("rev", .int 4)])]
    let names := (compareConfigs expected actual (some "lora") false).map Difference.field
    expected.WellFormed ∧ actual.WellFormed ∧ (∀ key ∈ expected.keys, IsSegment key) ∧
      (∀ key ∈ actual.keys, IsSegment key) ∧
      names = ["region", "radio.tx", "radio.rx", "owner", "tx"] ∧ names.Nodup := by
  intro expected actual names
  have hexpected : expected.WellFormed := by
    simp [expected, Value.WellFormed, Value.WellFormedFields, Fields.Distinct, Fields.names]
  have hactual : actual.WellFormed := by
    simp [actual, Value.WellFormed, Value.WellFormedFields, Fields.Distinct, Fields.names]
  have hkeys : ∀ key ∈ expected.keys, IsSegment key := by decide
  have hothers : ∀ key ∈ actual.keys, IsSegment key := by decide
  exact ⟨hexpected, hactual, hkeys, hothers, by decide +kernel,
    compareConfigs_fields_nodup expected actual (some "lora") false hexpected hactual hkeys
      hothers⟩

-- With a dot in a key two records can have one name.
example :
    (compareConfigs (.map [("a", .map [("b", .int 1)])])
      (.map [("a", .map [("b", .int 2)]), ("a.b", .int 3)]) none false).map Difference.field =
        ["a.b", "a.b"] := by decide +kernel

end Compare

end RadioAdmin
