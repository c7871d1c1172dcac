import RadioAdmin.Proofs.Compare.Entry
import RadioAdmin.Proofs.Compare.Position

/-!
# The unmet positions of two maps

The comparison of two maps recurses over the expected keys with a path that it has joined
so far. Its records are those of the positions that are not met, one for each, in the
depth-first order of the expected keys; what a record says apart from its field does not
depend on where the comparison began.
-/
namespace RadioAdmin.Compare

open Value (IsPosition Precedes)

/-- The ways in which a value expected under a key is not met by what the actual side has
there, with the record of each. Two maps are met or not by their own keys. -/
inductive Unmet (key field : String) : Value → Option Value → Difference → Prop
  | absent {expected : Value} (set : expected.isEmpty = false) :
      Unmet key field expected none (.missing field expected)
  | lists {items others : List Value} (differ : (compareLists items others field).isSome) :
      Unmet key field (.list items) (some (.list others))
        (.mismatch field (.list (present items)) (.list (present others)))
  | notMap {fields : List (String × Value)} {found : Value} (set : fields ≠ [])
      (shape : ∀ others, found ≠ .map others) :
      Unmet key field (.map fields) (some found) (.typeMismatch field (.map fields) found)
  | notList {items : List Value} {found : Value} (set : items ≠ [])
      (shape : ∀ others, found ≠ .list others) :
      Unmet key field (.list items) (some found) (.typeMismatch field (.list items) found)
  | leaf {expected found : Value} (shape : isContainer expected = false)
      (differ : valuesAgree expected found key false = false) :
      Unmet key field expected (some found) (.mismatch field expected found)

/-- A position that is not met, with its record. -/
def Reports (expected actual : Value) (path : String) (keys : List String) (d : Difference) :
    Prop :=
  IsPosition expected actual keys ∧ ∃ key found, keys.getLast? = some key ∧
    expected.at? keys = some found ∧
    Unmet key (FieldPath.below path keys) found (actual.at? keys) d

/-- All keys that paths through a map can take are set. -/
def Named (value : Value) : Prop :=
  ∀ front fields, value.at? front = some (.map fields) → "" ∉ Fields.names fields

/-- A path that is not met is an entry that is not met, or goes on below a key that holds a
map on both sides. -/
theorem reports_cons_iff (expected actual : List (String × Value)) (path key : String)
    (keys : List String) (d : Difference) :
    Reports (.map expected) (.map actual) path (key :: keys) d ↔
      ∃ found, Fields.get? expected key = some found ∧
        ((keys = [] ∧ Unmet key (FieldPath.child path key) found (Fields.get? actual key) d) ∨
          ∃ a b, found = .map a ∧ Fields.get? actual key = some (.map b) ∧
            Reports (.map a) (.map b) (FieldPath.child path key) keys d) := by
  have hroot : (Value.map actual).at? [key] = Fields.get? actual key := by
    rw [Value.at?, Value.get?]
    exact Option.bind_fun_some _
  constructor
  · rintro ⟨hpos, last, value, hlast, hvalue, hunmet⟩
    obtain ⟨found, hfound, hk⟩ := (Value.isPosition_cons_iff ..).mp hpos
    refine ⟨found, hfound, ?_⟩
    rw [Value.at?_cons hfound] at hvalue
    rcases hk with rfl | ⟨a, b, rfl, hother, hbelow⟩
    · obtain rfl := Option.some.inj hvalue
      obtain rfl := Option.some.inj hlast
      rw [hroot] at hunmet
      exact Or.inl ⟨rfl, hunmet⟩
    · rw [Value.at?_cons hother] at hunmet
      rw [List.getLast?_cons_of_ne_nil hbelow.nonempty] at hlast
      exact Or.inr ⟨a, b, rfl, hother, hbelow, last, value, hlast, hvalue, hunmet⟩
  · rintro ⟨found, hfound, ⟨rfl, hunmet⟩ | ⟨a, b, rfl, hother, hbelow⟩⟩
    · have hpos := (Value.isPosition_cons_iff expected actual key []).mpr
        ⟨found, hfound, Or.inl rfl⟩
      refine ⟨hpos, key, found, rfl, ?_, ?_⟩
      · rw [Value.at?_cons hfound, Value.at?]
      · rw [hroot]
        exact hunmet
    · obtain ⟨hpos, last, value, hlast, hvalue, hunmet⟩ := hbelow
      refine ⟨(Value.isPosition_cons_iff ..).mpr
        ⟨_, hfound, Or.inr ⟨a, b, rfl, hother, hpos⟩⟩, last, value, ?_, ?_, ?_⟩
      · rw [List.getLast?_cons_of_ne_nil hpos.nonempty, hlast]
      · rw [Value.at?_cons hfound, hvalue]
      · rw [Value.at?_cons hother]
        exact hunmet

theorem reports_cons_maps {expected actual a b : List (String × Value)} {key : String}
    (ha : Fields.get? expected key = some (.map a)) (hb : Fields.get? actual key = some (.map b))
    (path : String) (keys : List String) (d : Difference) :
    Reports (.map expected) (.map actual) path (key :: keys) d ↔
      Reports (.map a) (.map b) (FieldPath.child path key) keys d := by
  rw [reports_cons_iff]
  constructor
  · rintro ⟨found, hfound, ⟨-, hunmet⟩ | ⟨a', b', rfl, hb', hbelow⟩⟩
    · obtain rfl := Option.some.inj (ha.symm.trans hfound)
      rw [hb] at hunmet
      cases hunmet with
      | notMap _ shape => exact absurd rfl (shape b)
      | leaf shape _ => cases shape
    · obtain rfl := Value.map.inj (Option.some.inj (ha.symm.trans hfound))
      obtain rfl := Value.map.inj (Option.some.inj (hb.symm.trans hb'))
      exact hbelow
  · intro h
    exact ⟨_, ha, Or.inr ⟨a, b, rfl, hb, h⟩⟩

theorem reports_cons_entry {expected actual : List (String × Value)} {key : String}
    {value : Value} (hget : Fields.get? expected key = some value)
    (hmaps : ∀ a b, value = .map a → Fields.get? actual key ≠ some (.map b))
    (path : String) (keys : List String) (d : Difference) :
    Reports (.map expected) (.map actual) path (key :: keys) d ↔
      keys = [] ∧ Unmet key (FieldPath.child path key) value (Fields.get? actual key) d := by
  rw [reports_cons_iff]
  constructor
  · rintro ⟨found, hfound, hunmet | ⟨a, b, rfl, hb, -⟩⟩
    · obtain rfl := Option.some.inj (hget.symm.trans hfound)
      exact hunmet
    · exact absurd hb (hmaps a b (Option.some.inj (hget.symm.trans hfound)))
  · intro h
    exact ⟨value, hget, Or.inl h⟩

/-- The record of an entry is there exactly when the entry is not met. -/
theorem unmet_iff (key field : String) (expected : Value) (found? : Option Value)
    (d : Difference) :
    Unmet key field expected found? d ↔ entryDifference? key field expected found? = some d := by
  constructor
  · intro h
    cases h with
    | absent set => rw [entryDifference?, set, if_neg (by decide)]
    | lists differ =>
      rw [isSome_compareLists, Bool.not_eq_true'] at differ
      rw [entryDifference?, compareLists_eq, differ, if_neg (by decide)]
    | notMap set shape =>
      rw [entryDifference?_container rfl (fun _ others _ => shape others)
        (fun _ _ he => by cases he), if_neg (by simpa [Value.isEmpty] using set)]
    | notList set shape =>
      rw [entryDifference?_container rfl (fun _ _ he => by cases he)
        (fun _ others _ => shape others), if_neg (by simpa [Value.isEmpty] using set)]
    | leaf shape differ => rw [entryDifference?_leaf shape, differ, if_neg (by decide)]
  · intro h
    cases found? with
    | none =>
      rw [entryDifference?] at h
      split at h
      · cases h
      · rename_i hset
        cases h
        exact .absent (by simpa using hset)
    | some found =>
      cases expected with
      | map fields =>
        by_cases hshape : ∃ others, found = .map others
        · obtain ⟨others, rfl⟩ := hshape
          cases h
        · have hne : ∀ others, found ≠ .map others := fun others he => hshape ⟨others, he⟩
          rw [entryDifference?_container rfl (fun _ others _ => hne others)
            (fun _ _ he => by cases he)] at h
          split at h
          · cases h
          · rename_i hset
            cases h
            exact .notMap (by simpa [Value.isEmpty] using hset) hne
      | list items =>
        by_cases hshape : ∃ others, found = .list others
        · obtain ⟨others, rfl⟩ := hshape
          have hd : compareLists items others field = some d := h
          have hsome : (compareLists items others field).isSome := by rw [hd]; rfl
          have hagree : listsAgree items others field = false := by
            rwa [isSome_compareLists, Bool.not_eq_true'] at hsome
          rw [compareLists_eq, hagree, if_neg (by decide)] at hd
          cases hd
          exact .lists hsome
        · have hne : ∀ others, found ≠ .list others := fun others he => hshape ⟨others, he⟩
          rw [entryDifference?_container rfl (fun _ _ he => by cases he)
            (fun _ others _ => hne others)] at h
          split at h
          · cases h
          · rename_i hset
            cases h
            exact .notList (by simpa [Value.isEmpty] using hset) hne
      | _ =>
        rw [entryDifference?_leaf rfl] at h
        split at h
        · cases h
        · rename_i hdiffer
          cases h
          exact .leaf rfl (by simpa using hdiffer)

/-- Records with the paths at which they arose. -/
abbrev Located := List (List String × Difference)

/-- The records below a key that holds a map on both sides are those of the two maps, each one
key deeper. -/
theorem mem_below_iff {expected actual a b : List (String × Value)} {key path : String}
    (ha : Fields.get? expected key = some (.map a)) (hb : Fields.get? actual key = some (.map b))
    {below : Located}
    (h : ∀ keys d, (keys, d) ∈ below ↔
      Reports (.map a) (.map b) (FieldPath.child path key) keys d)
    (keys : List String) (d : Difference) :
    (keys, d) ∈ below.map (fun entry => (key :: entry.1, entry.2)) ↔
      ∃ under, keys = key :: under ∧ Reports (.map expected) (.map actual) path keys d := by
  rw [List.mem_map]
  constructor
  · rintro ⟨⟨under, e⟩, hmem, he⟩
    obtain ⟨rfl, rfl⟩ := Prod.mk.inj he
    exact ⟨under, rfl, (reports_cons_maps ha hb path under e).mpr ((h under e).mp hmem)⟩
  · rintro ⟨under, rfl, hreports⟩
    exact ⟨(under, d), (h under d).mpr ((reports_cons_maps ha hb path under d).mp hreports), rfl⟩

/-- The record of any other key, if there is one, is all that is reported of the key. -/
theorem mem_record_iff {expected actual : List (String × Value)} {key : String} {value : Value}
    (hget : Fields.get? expected key = some value)
    (hmaps : ∀ a b, value = .map a → Fields.get? actual key ≠ some (.map b)) (path : String)
    (keys : List String) (d : Difference) :
    (keys, d) ∈ (entryDifference? key (FieldPath.child path key) value
        (Fields.get? actual key)).toList.map (fun record => ([key], record)) ↔
      ∃ under, keys = key :: under ∧ Reports (.map expected) (.map actual) path keys d := by
  rw [List.mem_map]
  constructor
  · rintro ⟨e, hmem, he⟩
    obtain ⟨rfl, rfl⟩ := Prod.mk.inj he
    exact ⟨[], rfl, (reports_cons_entry hget hmaps path [] e).mpr
      ⟨rfl, (unmet_iff ..).mpr (Option.mem_toList.mp hmem)⟩⟩
  · rintro ⟨under, rfl, hreports⟩
    obtain ⟨rfl, hunmet⟩ := (reports_cons_entry hget hmaps path under d).mp hreports
    exact ⟨d, Option.mem_toList.mpr ((unmet_iff ..).mp hunmet), rfl⟩

/-- The records of an entry and those of the entries after it, put together. -/
theorem located_cons {key : String} {value : Value} {rest actual : List (String × Value)}
    {path : String} {head tail : Located} (hnew : key ∉ Fields.names rest)
    (hhead : ∀ keys d, (keys, d) ∈ head ↔
      ∃ below, keys = key :: below ∧
        Reports (.map ((key, value) :: rest)) (.map actual) path keys d)
    (hsorted : (head.map Prod.fst).Pairwise (Precedes (.map ((key, value) :: rest))))
    (htail : ∀ keys d, (keys, d) ∈ tail ↔ Reports (.map rest) (.map actual) path keys d)
    (htailSorted : (tail.map Prod.fst).Pairwise (Precedes (.map rest))) :
    (∀ keys d, (keys, d) ∈ head ++ tail ↔
      Reports (.map ((key, value) :: rest)) (.map actual) path keys d) ∧
    ((head ++ tail).map Prod.fst).Pairwise (Precedes (.map ((key, value) :: rest))) := by
  -- Both sides of a path that begins with another key see the rest alone.
  have hother : ∀ name keys d, name ≠ key →
      (Reports (.map ((key, value) :: rest)) (.map actual) path (name :: keys) d ↔
        Reports (.map rest) (.map actual) path (name :: keys) d) := by
    intro name keys d hne
    rw [reports_cons_iff, reports_cons_iff, Fields.get?_cons_of_ne value rest hne.symm]
  have hfirst : ∀ keys d, Reports (.map rest) (.map actual) path keys d →
      ∃ name below, keys = name :: below ∧ name ∈ Fields.names rest := by
    intro keys d h
    obtain ⟨name, below, rfl⟩ := List.exists_cons_of_ne_nil h.1.nonempty
    obtain ⟨found, hfound, -⟩ := (reports_cons_iff ..).mp h
    exact ⟨name, below, rfl, Fields.mem_names_of_get? hfound⟩
  constructor
  · intro keys d
    rw [List.mem_append, hhead, htail]
    constructor
    · rintro (⟨below, rfl, h⟩ | h)
      · exact h
      · obtain ⟨name, below, rfl, hmem⟩ := hfirst keys d h
        exact (hother name below d fun he => hnew (he ▸ hmem)).mpr h
    · intro h
      obtain ⟨name, below, rfl⟩ := List.exists_cons_of_ne_nil h.1.nonempty
      by_cases hn : name = key
      · subst hn
        exact Or.inl ⟨below, rfl, h⟩
      · exact Or.inr ((hother name below d hn).mp h)
  · rw [List.map_append, List.pairwise_append]
    refine ⟨hsorted, htailSorted.imp fun h => h.cons hnew, ?_⟩
    intro first hfst second hsnd
    obtain ⟨⟨keys, d⟩, hmem, rfl⟩ := List.mem_map.mp hfst
    obtain ⟨⟨others, e⟩, hmem', rfl⟩ := List.mem_map.mp hsnd
    obtain ⟨below, rfl, -⟩ := (hhead keys d).mp hmem
    obtain ⟨name, below', rfl, hname⟩ := hfirst others e ((htail others e).mp hmem')
    exact Value.precedes_cons below below' hname

/-- The comparison lists the records of the paths that are not met, in depth-first order. -/
theorem exists_located (expected : List (String × Value)) :
    ∀ (actual : List (String × Value)) (path : String), Value.WellFormed (.map expected) →
      ∃ found : Located, compareFields expected actual path = found.map Prod.snd ∧
        (∀ keys d, (keys, d) ∈ found ↔ Reports (.map expected) (.map actual) path keys d) ∧
        (found.map Prod.fst).Pairwise (Precedes (.map expected)) := by
  induction expected using Value.fields_induction with
  | nil =>
    intro actual path _
    refine ⟨[], by rw [compareFields]; rfl, ?_, List.Pairwise.nil⟩
    intro keys d
    constructor
    · intro h
      cases h
    · rintro ⟨hpos, -⟩
      obtain ⟨key, below, rfl⟩ := List.exists_cons_of_ne_nil hpos.nonempty
      obtain ⟨found, hfound, -⟩ := (Value.isPosition_cons_iff ..).mp hpos
      cases hfound
  | cons key value rest ihBelow ihRest =>
    intro actual path hw
    obtain ⟨hdistinct, hvalue, hrest⟩ := hw
    obtain ⟨hnew, hdistinct⟩ := List.nodup_cons.mp hdistinct
    obtain ⟨tail, htail, hmemTail, hsortedTail⟩ := ihRest actual path ⟨hdistinct, hrest⟩
    have hself := Fields.get?_cons_self key value rest
    by_cases hmaps : ∃ a b, value = .map a ∧ Fields.get? actual key = some (.map b)
    · obtain ⟨a, b, rfl, hb⟩ := hmaps
      obtain ⟨below, hbelow, hmemBelow, hsortedBelow⟩ :=
        ihBelow a rfl b (FieldPath.child path key) hvalue
      let head : Located := below.map fun entry => (key :: entry.1, entry.2)
      have hsorted : (head.map Prod.fst).Pairwise (Precedes (.map ((key, .map a) :: rest))) := by
        rw [List.map_map, List.pairwise_map]
        exact (List.pairwise_map.mp hsortedBelow).imp fun h => h.below hself
      obtain ⟨hmem, hall⟩ :=
        located_cons hnew (mem_below_iff hself hb hmemBelow) hsorted hmemTail hsortedTail
      refine ⟨head ++ tail, ?_, hmem, hall⟩
      rw [compareFields_cons_maps rest path hb, hbelow, htail, List.map_append, List.map_map]
      rfl
    · have hmaps' : ∀ a b, value = .map a → Fields.get? actual key ≠ some (.map b) :=
        fun a b ha hb => hmaps ⟨a, b, ha, hb⟩
      have hhead := mem_record_iff hself hmaps' path
      have hcompare := compareFields_cons_entry rest path hmaps'
      generalize entryDifference? key (FieldPath.child path key) value (Fields.get? actual key) =
        record at hhead hcompare
      let head : Located := record.toList.map fun d => ([key], d)
      have hsorted : (head.map Prod.fst).Pairwise (Precedes (.map ((key, value) :: rest))) := by
        rw [List.map_map, List.pairwise_map]
        cases record with
        | none => exact List.Pairwise.nil
        | some d => exact List.pairwise_singleton _ _
      obtain ⟨hmem, hall⟩ := located_cons hnew hhead hsorted hmemTail hsortedTail
      refine ⟨head ++ tail, ?_, hmem, hall⟩
      rw [hcompare, htail, List.map_append, List.map_map]
      exact congrArg (· ++ _) (List.map_id _).symm

/-- Every record names the keys of its position, joined with dots behind the path. -/
theorem field_of_unmet {key field : String} {expected : Value} {found? : Option Value}
    {d : Difference} (h : Unmet key field expected found? d) : d.field = field := by
  cases h <;> rfl

theorem ne_empty_of_at? {value found : Value} {keys : List String} (hnamed : Named value)
    (h : value.at? keys = some found) : ∀ key ∈ keys, key ≠ "" := by
  induction keys generalizing value with
  | nil => exact fun key hmem => absurd hmem List.not_mem_nil
  | cons key keys ih =>
    cases value with
    | map fields =>
      obtain ⟨below, hget, hat⟩ := Value.exists_of_at?_cons h
      have hkey : key ≠ "" := fun he =>
        hnamed [] fields rfl (he ▸ Fields.mem_names_of_get? hget)
      have hbelow : Named below := fun front inner hinner =>
        hnamed (key :: front) inner (by rw [Value.at?_cons hget, hinner])
      intro other hmem
      rcases List.mem_cons.mp hmem with rfl | hmem
      · exact hkey
      · exact ih hbelow hat other hmem
    | _ => cases h

/-- The comparison of two maps has exactly one record for each position that is not met and
no other, in the depth-first order of the expected keys. Where no key is empty, the field of
a record is the keys of its position joined with dots, behind the path if there is one; the
number, order, kinds and values of the records do not depend on the path. -/
theorem compareFields_reports_unmet (expected actual : List (String × Value)) (path : String)
    (hw : Value.WellFormed (.map expected)) :
    ∃ found : List (List String × Difference),
      compareFields expected actual path = found.map Prod.snd ∧
      (found.map Prod.fst).Nodup ∧
      (∀ keys d, (keys, d) ∈ found ↔ Reports (.map expected) (.map actual) path keys d) ∧
      (found.map Prod.fst).Pairwise (Precedes (.map expected)) ∧
      (Named (.map expected) → ∀ keys d, (keys, d) ∈ found →
        d.field = ".".intercalate (if path = "" then keys else path :: keys)) ∧
      ∀ other, (compareFields expected actual other).map contents =
        (compareFields expected actual path).map contents := by
  obtain ⟨found, hfound, hmem, hsorted⟩ := exists_located expected actual path hw
  refine ⟨found, hfound, ?_, hmem, hsorted, ?_, fun other => compareFields_contents ..⟩
  · exact List.nodup_iff_pairwise_ne.mpr (hsorted.imp fun h => h.ne hw)
  · intro hnamed keys d hd
    obtain ⟨hpos, key, value, -, hvalue, hunmet⟩ := (hmem keys d).mp hd
    rw [field_of_unmet hunmet]
    exact FieldPath.below_eq_intercalate path keys hpos.nonempty (ne_empty_of_at? hnamed hvalue)

theorem compareFields_reports_unmet_nested :
    Value.WellFormed (.map [("lora", .map [("region", .int 1)]), ("owner", .text "a")]) ∧
    ∃ found : List (List String × Difference),
      compareFields [("lora", .map [("region", .int 1)]), ("owner", .text "a")]
        [("owner", .text "a"), ("lora", .map [("region", .int 2)])] "node" =
          found.map Prod.snd ∧
      (["lora", "region"], .mismatch "node.lora.region" (.int 1) (.int 2)) ∈ found := by
  have hw : Value.WellFormed
      (.map [("lora", .map [("region", .int 1)]), ("owner", .text "a")]) := by
    simp [Value.WellFormed, Value.WellFormedFields, Fields.Distinct, Fields.names]
  obtain ⟨found, hfound, -, hmem, -⟩ := compareFields_reports_unmet _
    [("owner", .text "a"), ("lora", .map [("region", .int 2)])] "node" hw
  refine ⟨hw, found, hfound, (hmem _ _).mpr ?_⟩
  have hdiffer : valuesAgree (.int 1) (.int 2) "region" false = false := by
    rw [valuesAgree_leaf "region" false rfl rfl rfl]
    decide +kernel
  rw [reports_cons_maps rfl rfl, reports_cons_entry rfl (fun _ _ he => by cases he)]
  exact ⟨rfl, .leaf rfl hdiffer⟩

end RadioAdmin.Compare
