import RadioAdmin.Proofs.Compare.Added
import RadioAdmin.Proofs.Compare.Position

/-!
# What a strict comparison accounts for

A strict comparison should also report what only the node has, but it looks for that among the first
keys alone. So when it has nothing to report, a path of keys to something that is set on the node
begins with an expected key. From there the comparison goes on below keys that hold a map on both
sides, and all of the path is expected unless the expected side leaves it on the way: it has a value
that is met by the map as a whole, or it has a map without the next key, where nothing is reported.
-/
namespace RadioAdmin.Compare

/-- A value that is no map and is met by a set map: a list of nothing, the flag true, or what reads
as the text of the map. -/
def StandsForMap (value : Value) (fields : List (String × Value)) : Prop :=
  value = .list [] ∨ isContainer value = false ∧
    (value = .bool true ∨ value.display = (Value.map fields).display)

/-- Both sides have what lies at a front of a path, on the actual side a map, but the expected side
does not lead on to the next key: it has a value that stands for the map, or a map without the
key. -/
def LeavesAt (expected actual : Value) (front : List String) (next : String) : Prop :=
  ∃ value fields, expected.at? front = some value ∧ actual.at? front = some (.map fields) ∧
    (StandsForMap value fields ∨ ∃ inner, value = .map inner ∧ Fields.get? inner next = none)

variable {expected actual : List (String × Value)} {path key : String} {value : Value}

theorem StandsForMap.get?_eq_none {fields : List (String × Value)} (h : StandsForMap value fields)
    (key : String) : value.get? key = none := by
  cases value with
  | map inner =>
    rcases h with h | ⟨h, -⟩
    · cases h
    · cases h
  | _ => rfl

/-- Where the expected side leaves a path it has nothing at the end of it. -/
theorem LeavesAt.at?_eq_none {expected actual : Value} {front : List String} {next : String}
    (h : LeavesAt expected actual front next) (back : List String) :
    expected.at? (front ++ next :: back) = none := by
  obtain ⟨value, fields, hvalue, -, hleaves⟩ := h
  have hnext : value.get? next = none := by
    rcases hleaves with hstands | ⟨inner, rfl, hnone⟩
    · exact hstands.get?_eq_none next
    · exact hnone
  rw [Value.at?_append hvalue, Value.at?, hnext, Option.bind_none]

theorem standsForMap_of_leavesAgree {fields : List (String × Value)} {inKeyField : Bool}
    (hleaf : isContainer value = false) (hset : value.isEmpty = false) (hfields : fields ≠ [])
    (h : leavesAgree value (.map fields) inKeyField = true) : StandsForMap value fields := by
  refine .inr ⟨hleaf, ?_⟩
  rcases leavesAgree_map_cases hset hfields h with ⟨rfl | ⟨items, rfl⟩, -⟩ | htext
  · exact .inl rfl
  · cases hleaf
  · rw [htext, beq_iff_eq] at h
    exact .inr h

/-- What is no map and is met by a set map stands for it. -/
theorem standsForMap_of_entryDifference? {field : String} {fields : List (String × Value)}
    (hmap : ∀ inner, value ≠ .map inner) (hfields : fields ≠ [])
    (h : entryDifference? key field value (some (.map fields)) = none) :
    StandsForMap value fields := by
  by_cases hcontainer : isContainer value = true
  · rw [entryDifference?_container hcontainer (fun inner _ he => absurd he (hmap inner))
      (fun _ _ _ he => by cases he)] at h
    split at h
    · rename_i hunset
      cases value with
      | map inner => exact absurd rfl (hmap inner)
      | list items =>
        obtain rfl := List.isEmpty_iff.mp hunset
        exact .inl rfl
      | _ => cases hcontainer
    · cases h
  · rw [Bool.not_eq_true] at hcontainer
    have hactual : (Value.map fields).isEmpty = false := Value.isEmpty_map hfields
    have hagree : valuesAgree value (.map fields) key false = true := by
      by_contra hdiffer
      rw [entryDifference?_leaf hcontainer, if_neg hdiffer] at h
      cases h
    cases hset : value.isEmpty with
    | true =>
      rw [valuesAgree_unset key false (.inl hset), hactual, Bool.and_false] at hagree
      cases hagree
    | false =>
      rw [valuesAgree_leaf key false hset hactual hcontainer] at hagree
      exact standsForMap_of_leavesAgree hcontainer hset hfields hagree

/-- Below a key that holds a set map on the node the comparison goes on, or meets it as a whole. -/
theorem compareFields_of_get?_map {fields : List (String × Value)}
    (h : compareFields expected actual path = []) (hvalue : Fields.get? expected key = some value)
    (hfields : Fields.get? actual key = some (.map fields)) (hset : fields ≠ []) :
    (∃ inner, value = .map inner ∧ compareFields inner fields (FieldPath.child path key) = []) ∨
      StandsForMap value fields := by
  have hentry := compareFields_eq_nil_of_mem h (Fields.mem_of_get? hvalue)
  by_cases hmap : ∃ inner, value = .map inner
  · obtain ⟨inner, rfl⟩ := hmap
    rw [compareFields_cons_maps [] path hfields, compareFields_nil, List.append_nil] at hentry
    exact .inl ⟨inner, rfl, hentry⟩
  · rw [not_exists] at hmap
    rw [compareFields_cons_entry [] path fun a _ ha => absurd ha (hmap a), compareFields_nil,
      List.append_nil, hfields, Option.toList_eq_nil_iff] at hentry
    exact .inr (standsForMap_of_entryDifference? hmap hset hentry)

theorem LeavesAt.below {inner fields : List (String × Value)} {front : List String} {next : String}
    (hinner : Fields.get? expected key = some (.map inner))
    (hfields : Fields.get? actual key = some (.map fields))
    (h : LeavesAt (.map inner) (.map fields) front next) :
    LeavesAt (.map expected) (.map actual) (key :: front) next := by
  obtain ⟨value, reached, hvalue, hreached, hleaves⟩ := h
  exact ⟨value, reached, by rw [Value.at?_cons hinner, hvalue],
    by rw [Value.at?_cons hfields, hreached], hleaves⟩

/-- Below an expected key the two sides part ways where the expected one leaves the path, or not
at all. -/
theorem leavesAt_or_at? {found : Value} (keys : List String)
    (h : compareFields expected actual path = []) (hvalue : Fields.get? expected key = some value)
    (hfound : (Value.map actual).at? (key :: keys) = some found) :
    (∃ met, (Value.map expected).at? (key :: keys) = some met) ∨
      ∃ front next back, keys = front ++ next :: back ∧
        LeavesAt (.map expected) (.map actual) (key :: front) next := by
  induction keys generalizing expected actual path key value with
  | nil => exact .inl ⟨value, Value.at?_cons hvalue []⟩
  | cons next rest ih =>
    obtain ⟨below, hbelow, hfurther⟩ := Value.exists_of_at?_cons hfound
    obtain ⟨fields, rfl, hset⟩ := Value.exists_map_of_at?_cons hfurther
    have hend (hleaves : StandsForMap value fields ∨
        ∃ inner, value = .map inner ∧ Fields.get? inner next = none) :
        LeavesAt (.map expected) (.map actual) [key] next :=
      ⟨value, fields, Value.at?_cons hvalue [], Value.at?_cons hbelow [], hleaves⟩
    rcases compareFields_of_get?_map h hvalue hbelow hset with ⟨inner, rfl, hinner⟩ | hstands
    · cases hnext : Fields.get? inner next with
      | none => exact .inr ⟨[], next, rest, rfl, hend (.inr ⟨inner, rfl, hnext⟩)⟩
      | some further =>
        rcases ih hinner hnext hfurther with ⟨met, hmet⟩ | ⟨front, last, back, rfl, hleaves⟩
        · exact .inl ⟨met, by rw [Value.at?_cons hvalue, hmet]⟩
        · exact .inr ⟨next :: front, last, back, rfl, hleaves.below hvalue hbelow⟩
    · exact .inr ⟨[], next, rest, rfl, hend (.inl hstands)⟩

/-- Without extras a set field of the node is expected. -/
theorem has_of_extras_eq_nil (h : extras expected actual = [])
    (hget : Fields.get? actual key = some value) (hset : value.isEmpty = false) :
    Fields.has expected key = true := by
  rw [extras, List.map_eq_nil_iff, List.filter_eq_nil_iff] at h
  have hentry := h (key, value) (Fields.mem_of_get? hget)
  simpa [hset] using hentry

theorem compareConfigs_of_maps {sectionName : Option String}
    {fields others : List (String × Value)} {allowUndefined : Bool}
    (hexpected : expected ≠ []) (hactual : actual ≠ [])
    (hfields : unwrapExpected (.map expected) = .map fields)
    (hothers : unwrapActual (.map actual) sectionName = .map others) :
    compareConfigs (.map expected) (.map actual) sectionName allowUndefined =
      compareFields fields others "" ++ if allowUndefined then [] else extras fields others := by
  rw [compareConfigs.eq_def, Value.isEmpty_map hexpected, Value.isEmpty_map hactual,
    if_neg Bool.false_ne_true, if_neg Bool.false_ne_true, hfields, hothers, compareUnwrapped]

/-- When a strict comparison reports nothing, a path to something set on the node is expected to its
end exactly unless the expected side leaves it below its first key. -/
theorem compareConfigs_strict_accounts (expected actual : List (String × Value))
    (sectionName : Option String) (fields others : List (String × Value))
    (hexpected : expected ≠ []) (hactual : actual ≠ [])
    (hfields : unwrapExpected (.map expected) = .map fields)
    (hothers : unwrapActual (.map actual) sectionName = .map others)
    (h : compareConfigs (.map expected) (.map actual) sectionName false = [])
    (keys : List String) (found : Value) (hfound : (Value.map others).at? keys = some found)
    (hset : found.isEmpty = false) :
    (∃ value, (Value.map fields).at? keys = some value) ↔
      ¬ ∃ front next back, keys = front ++ next :: back ∧ front ≠ [] ∧
        LeavesAt (.map fields) (.map others) front next := by
  rw [compareConfigs_of_maps hexpected hactual hfields hothers, if_neg Bool.false_ne_true,
    List.append_eq_nil_iff] at h
  obtain ⟨hcompared, hextras⟩ := h
  constructor
  · rintro ⟨value, hvalue⟩ ⟨front, next, back, rfl, -, hleaves⟩
    rw [hleaves.at?_eq_none back] at hvalue
    cases hvalue
  · intro hstays
    cases keys with
    | nil => exact ⟨_, rfl⟩
    | cons key keys =>
      obtain ⟨below, hbelow, hfurther⟩ := Value.exists_of_at?_cons hfound
      have hhas := has_of_extras_eq_nil hextras hbelow (Value.isEmpty_of_at? hfurther hset)
      obtain ⟨value, hvalue⟩ := Option.isSome_iff_exists.mp hhas
      refine (leavesAt_or_at? keys hcompared hvalue hfound).resolve_right ?_
      rintro ⟨front, next, back, rfl, hleaves⟩
      exact hstays ⟨key :: front, next, back, rfl, List.cons_ne_nil key front, hleaves⟩

/-- A path through an envelope and two maps is expected to its end. -/
theorem compareConfigs_strict_accounts_power :
    let power : Value := .map [("tx", .int 30)]
    let fields : List (String × Value) := [("region", .int 1), ("radio", power)]
    let others : List (String × Value) := [("radio", power), ("region", .int 1), ("hops", .null)]
    unwrapExpected (.map [("lora", .map fields)]) = .map fields ∧
    unwrapActual (.map others) (some "lora") = .map others ∧
    compareConfigs (.map [("lora", .map fields)]) (.map others) (some "lora") false = [] ∧
    (Value.map others).at? ["radio", "tx"] = some (.int 30) ∧
    (Value.int 30).isEmpty = false ∧
    ((∃ value, (Value.map fields).at? ["radio", "tx"] = some value) ↔
      ¬ ∃ front next back, ["radio", "tx"] = front ++ next :: back ∧ front ≠ [] ∧
        LeavesAt (.map fields) (.map others) front next) := by
  intro power fields others
  have hfields : unwrapExpected (.map [("lora", .map fields)]) = .map fields := rfl
  have hothers : unwrapActual (.map others) (some "lora") = .map others := by
    have hbare : (Value.map others).get? "lora" = none := by decide +kernel
    refine unwrapActual_of_bare rfl fun asked h => ?_
    obtain rfl := Option.some.inj h
    exact hbare
  have hequal : compareConfigs (.map [("lora", .map fields)]) (.map others) (some "lora") false =
      [] := by decide +kernel
  have hfound : (Value.map others).at? ["radio", "tx"] = some (.int 30) := by
    rw [Value.at?_cons (Fields.get?_cons_self ..), Value.at?_cons (Fields.get?_cons_self ..),
      Value.at?]
  exact ⟨hfields, hothers, hequal, hfound, rfl,
    compareConfigs_strict_accounts _ others (some "lora") fields others (List.cons_ne_nil _ _)
      (List.cons_ne_nil _ _) hfields hothers hequal ["radio", "tx"] (.int 30) hfound rfl⟩

/-- Nothing is reported of a field that only the node has in a map below the first keys. -/
theorem compareConfigs_strict_nested :
    let expected : List (String × Value) := [("x", .map [("a", .int 1)])]
    let actual : List (String × Value) := [("x", .map [("a", .int 1), ("b", .int 2)])]
    unwrapExpected (.map expected) = .map expected ∧
    unwrapActual (.map actual) none = .map actual ∧
    compareConfigs (.map expected) (.map actual) none false = [] ∧
    (Value.map actual).at? ["x", "b"] = some (.int 2) ∧
    (Value.map expected).at? ["x", "b"] = none := by
  intro expected actual
  refine ⟨rfl, rfl, by decide +kernel, ?_, ?_⟩
  · rw [Value.at?_cons (Fields.get?_cons_self ..)]
    rfl
  · rw [Value.at?_cons (Fields.get?_cons_self ..)]
    rfl

end RadioAdmin.Compare
