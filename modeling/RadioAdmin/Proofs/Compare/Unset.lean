import Mathlib.Data.List.Nodup
import RadioAdmin.Proofs.Compare.Added
import RadioAdmin.Proofs.Compare.Sets

/-!
# A field that the node leaves unset

A node may leave a field out or have it unset in any shape, which should come to the same. It does
where the expected value is unset too, and where there is something in it that the node lacks. But
two maps or two lists are compared by what is in them, before anyone asks whether they are set: an
expected container that has nothing in it to compare is met by the unset container of its own shape
alone.
-/
namespace RadioAdmin.Compare

open KeyMaterial (isKeyField)

/-- A container that is set and yet met by the unset one of its shape: no field of it is set, no
element of it is, or no key is told in it where its elements count as keys. -/
inductive Hollow (key : String) : Value → Value → Prop
  | map {fields : List (String × Value)} (set : fields ≠ [])
      (unset : ∀ entry ∈ fields, entry.2.isEmpty = true) : Hollow key (.map fields) (.map [])
  | list {items : List Value} (set : items ≠ []) (plain : isKeyField key = false)
      (unset : ∀ item ∈ items, item.isEmpty = true) : Hollow key (.list items) (.list [])
  | keys {items : List Value} (set : items ≠ []) (named : isKeyField key = true)
      (keyless : keysOf (present items) = []) : Hollow key (.list items) (.list [])

variable {key : String} {expected unset : Value}

theorem Hollow.isEmpty_eq_false (h : Hollow key expected unset) : expected.isEmpty = false := by
  cases h with
  | map set => simpa [Value.isEmpty] using set
  | list set => simpa [Value.isEmpty] using set
  | keys set => simpa [Value.isEmpty] using set

theorem hollow_map_iff {fields : List (String × Value)} (hset : fields ≠ []) :
    Hollow key (.map fields) unset ↔
      unset = .map [] ∧ ∀ entry ∈ fields, entry.2.isEmpty = true := by
  constructor
  · rintro (⟨-, hunset⟩ | _ | _)
    exact ⟨rfl, hunset⟩
  · rintro ⟨rfl, hunset⟩
    exact .map hset hunset

theorem present_eq_nil_iff (items : List Value) :
    present items = [] ↔ ∀ item ∈ items, item.isEmpty = true := by
  simp [present, List.filter_eq_nil_iff]

theorem sameMembers_nil_iff {α : Type} [BEq α] [LawfulBEq α] (a : List α) :
    sameMembers a [] = true ↔ a = [] := by
  rw [sameMembers_iff, List.eq_nil_iff_forall_not_mem]
  simp

/-- A list meets the unset list exactly when nothing of it is compared. -/
theorem listsAgree_nil_iff (items : List Value) (field : String) :
    listsAgree items [] field = true ↔
      if isKeyField field then keysOf (present items) = []
      else ∀ item ∈ items, item.isEmpty = true := by
  have hkeys : keysOf (present []) = [] := rfl
  have htexts : (present []).mapM Value.asText? = some [] := rfl
  rw [listsAgree, hkeys, htexts, ← present_eq_nil_iff]
  split
  · exact sameMembers_nil_iff _
  · cases hmapM : (present items).mapM Value.asText? with
    | none =>
      show itemsAgree items (present []) _ = true ↔ _
      rw [itemsAgree_iff]
      simp [present]
    | some texts =>
      show sameMembers texts [] = true ↔ _
      rw [sameMembers_nil_iff, mapM_asText?_eq_some_iff.mp hmapM, List.map_eq_nil_iff]

theorem hollow_list_iff {items : List Value} (hset : items ≠ []) :
    Hollow key (.list items) unset ↔ unset = .list [] ∧ listsAgree items [] key = true := by
  rw [listsAgree_nil_iff]
  constructor
  · rintro (_ | ⟨-, hplain, hunset⟩ | ⟨-, hnamed, hkeyless⟩)
    · rw [if_neg (by simp [hplain])]
      exact ⟨rfl, hunset⟩
    · rw [if_pos hnamed]
      exact ⟨rfl, hkeyless⟩
  · rintro ⟨rfl, hcompared⟩
    split at hcompared
    · rename_i hnamed
      exact .keys hset hnamed hcompared
    · rename_i hplain
      exact .list hset (by simpa using hplain) hcompared

/-- What is expected under a key is met by something unset there exactly if it is unset itself, or a
hollow container of the same shape. -/
theorem compareFields_entry_unset_iff {actual : List (String × Value)} (path : String)
    (hget : Fields.get? actual key = some unset) (hunset : unset.isEmpty = true) :
    compareFields [(key, expected)] actual path = [] ↔
      expected.isEmpty = true ∨ Hollow key expected unset := by
  by_cases hmaps : ∃ fields others, expected = .map fields ∧ unset = .map others
  · obtain ⟨fields, others, rfl, rfl⟩ := hmaps
    obtain rfl := List.isEmpty_iff.mp hunset
    rw [compareFields_cons_maps [] path hget, compareFields_nil, List.append_nil,
      compareFields_unset_iff]
    by_cases hset : fields = []
    · subst hset
      simp [Value.isEmpty]
    · rw [hollow_map_iff hset]
      simp [Value.isEmpty, hset]
  have hmaps' : ∀ fields others, expected = .map fields → unset ≠ .map others :=
    fun fields others he hu => hmaps ⟨fields, others, he, hu⟩
  rw [compareFields_cons_entry [] path (by rw [hget]; simpa using hmaps'), compareFields_nil,
    List.append_nil, hget]
  by_cases hlists : ∃ items others, expected = .list items ∧ unset = .list others
  · obtain ⟨items, others, rfl, rfl⟩ := hlists
    obtain rfl := List.isEmpty_iff.mp hunset
    rw [entryDifference?, Option.toList_eq_nil_iff, compareLists_eq_none_iff, listsAgree_child]
    by_cases hset : items = []
    · subst hset
      simp [listsAgree_nil_iff, Value.isEmpty, present, keysOf, KeyMaterial.ofList]
    · rw [hollow_list_iff hset]
      simp [Value.isEmpty, hset]
  have hlists' : ∀ items others, expected = .list items → unset ≠ .list others :=
    fun items others he hu => hlists ⟨items, others, he, hu⟩
  have hhollow : ¬ Hollow key expected unset := by
    rintro (_ | _ | _)
    · exact hmaps' _ _ rfl rfl
    · exact hlists' _ _ rfl rfl
    · exact hlists' _ _ rfl rfl
  rw [Option.toList_eq_nil_iff, or_iff_left hhollow]
  cases hcontainer : isContainer expected with
  | true =>
    rw [entryDifference?_container hcontainer hmaps' hlists']
    cases expected.isEmpty <;> simp
  | false =>
    rw [entryDifference?_leaf hcontainer, valuesAgree_unset key false (.inr hunset), hunset,
      Bool.and_true]
    cases expected.isEmpty <;> simp

/-- Nothing differs when nothing differs under one key and nothing under the others. -/
theorem compareFields_eq_nil_iff_erase (expected actual : List (String × Value)) (path key : String) :
    compareFields expected actual path = [] ↔
      compareFields (Fields.erase expected key) actual path = [] ∧
        ∀ value, Fields.get? expected key = some value →
          compareFields [(key, value)] actual path = [] := by
  induction expected with
  | nil => simp [Fields.erase, Fields.get?, compareFields_nil]
  | cons entry rest ih =>
    obtain ⟨name, value⟩ := entry
    rw [compareFields_cons, List.append_eq_nil_iff, Fields.erase]
    by_cases hname : name = key
    · subst hname
      rw [if_pos rfl, Fields.get?_cons_self, and_comm]
      simp only [Option.some_inj, forall_eq']
    · rw [if_neg hname, Fields.get?_cons_of_ne value rest hname, ih,
        compareFields_cons (name, value) (Fields.erase rest key), List.append_eq_nil_iff, and_assoc]

section

variable {expected actual : List (String × Value)} (path key : String)

theorem compareFields_without_iff (hexpected : Fields.Distinct expected)
    (hactual : Fields.Distinct actual) :
    compareFields expected (Fields.erase actual key) path = [] ↔
      compareFields (Fields.erase expected key) actual path = [] ∧
        ∀ value, Fields.get? expected key = some value → value.isEmpty = true := by
  have hothers : compareFields (Fields.erase expected key) (Fields.erase actual key) path =
      compareFields (Fields.erase expected key) actual path := by
    apply compareFields_congr
    intro name hname
    apply Fields.get?_erase_of_ne
    rintro rfl
    exact Fields.notMem_names_erase key hexpected hname
  have hnone : Fields.get? (Fields.erase actual key) key = none :=
    Fields.get?_eq_none_of_notMem (Fields.notMem_names_erase key hactual)
  rw [compareFields_eq_nil_iff_erase expected _ path key, hothers]
  refine and_congr_right fun _ => forall_congr' fun value => imp_congr_right fun _ => ?_
  rw [compareFields, hnone, compareFields_nil, List.append_nil]
  cases value.isEmpty <;> simp

/-- Nothing but a hollow container under a key could differ, and the unset value meets that. -/
def MeetsHollow (expected actual : List (String × Value)) (path key : String) (unset : Value) :
    Prop :=
  compareFields (Fields.erase expected key) actual path = [] ∧
    ∃ value, Fields.get? expected key = some value ∧ Hollow key value unset

variable {path key}

/-- An unset value is as good as none, and better only for a hollow container. -/
theorem compareFields_with_unset_iff {unset : Value} (hexpected : Fields.Distinct expected)
    (hactual : Fields.Distinct actual) (hunset : unset.isEmpty = true) :
    compareFields expected (Fields.insert actual key unset) path = [] ↔
      compareFields expected (Fields.erase actual key) path = [] ∨
        MeetsHollow expected actual path key unset := by
  have hnew : Fields.has (Fields.erase expected key) key = false :=
    Fields.has_eq_false_iff.mpr (Fields.notMem_names_erase key hexpected)
  have hfound : Fields.get? (Fields.insert actual key unset) key = some unset := by
    rw [Fields.get?_insert, if_pos rfl]
  rw [compareFields_without_iff path key hexpected hactual, MeetsHollow, ← and_or_left,
    compareFields_eq_nil_iff_erase expected _ path key, compareFields_insert actual unset path hnew]
  refine and_congr_right fun _ => ?_
  cases hget : Fields.get? expected key with
  | none => simp
  | some value =>
    simp only [Option.some_inj, forall_eq', exists_eq_left']
    exact compareFields_entry_unset_iff path hfound hunset

theorem MeetsHollow.without_ne_nil {unset : Value} (h : MeetsHollow expected actual path key unset)
    (hexpected : Fields.Distinct expected) (hactual : Fields.Distinct actual) :
    compareFields expected (Fields.erase actual key) path ≠ [] := by
  obtain ⟨-, value, hget, hhollow⟩ := h
  intro hnil
  have hempty := ((compareFields_without_iff path key hexpected hactual).mp hnil).2 value hget
  exact Bool.false_ne_true (hhollow.isEmpty_eq_false.symm.trans hempty)

end

/-- Whether something differs is the same for every way in which the node leaves a field unset,
exactly unless all that could differ is an expected container that is hollow and one of the ways is
the unset container of its shape. -/
theorem compareFields_unset_alike_iff (expected actual : List (String × Value))
    (path key : String) (x y : Value) (hexpected : Fields.Distinct expected)
    (hactual : Fields.Distinct actual) (hx : x.isEmpty = true) (hy : y.isEmpty = true) :
    let withX := compareFields expected (Fields.insert actual key x) path
    let withY := compareFields expected (Fields.insert actual key y) path
    let without := compareFields expected (Fields.erase actual key) path
    ((withX = [] ∧ withY = [] ∧ without = []) ∨ (withX ≠ [] ∧ withY ≠ [] ∧ without ≠ [])) ↔
      ¬ (MeetsHollow expected actual path key x ∨ MeetsHollow expected actual path key y) := by
  intro withX withY without
  have hwithX : withX = [] ↔ without = [] ∨ MeetsHollow expected actual path key x :=
    compareFields_with_unset_iff hexpected hactual hx
  have hwithY : withY = [] ↔ without = [] ∨ MeetsHollow expected actual path key y :=
    compareFields_with_unset_iff hexpected hactual hy
  have hhollow : ∀ unset, MeetsHollow expected actual path key unset → without ≠ [] :=
    fun _ h => h.without_ne_nil hexpected hactual
  by_cases hnil : without = []
  · have hnot : ∀ unset, ¬ MeetsHollow expected actual path key unset :=
      fun unset h => hhollow unset h hnil
    exact iff_of_true (.inl ⟨hwithX.mpr (.inl hnil), hwithY.mpr (.inl hnil), hnil⟩)
      (not_or.mpr ⟨hnot x, hnot y⟩)
  · rw [or_iff_right fun h => hnil h.2.2, not_or, Ne, Ne, hwithX, hwithY, or_iff_right hnil,
      or_iff_right hnil]
    exact and_congr_right fun _ => and_iff_left hnil

/-- Where something is expected in a section all ways of leaving the section unset miss it. -/
theorem compareFields_unset_alike_lora :
    let expected : List (String × Value) :=
      [("lora", .map [("region", .int 1), ("name", .null)]), ("owner", .text "")]
    let actual : List (String × Value) := [("lora", .map [("region", .int 1)])]
    Fields.Distinct expected ∧ Fields.Distinct actual ∧
      compareFields expected (Fields.insert actual "lora" (.map [])) "" ≠ [] ∧
      compareFields expected (Fields.insert actual "lora" .null) "" ≠ [] ∧
      compareFields expected (Fields.erase actual "lora") "" ≠ [] := by
  intro expected actual
  have hexpected : Fields.Distinct expected := by
    show (["lora", "owner"] : List String).Nodup
    decide
  have hactual : Fields.Distinct actual := List.nodup_singleton "lora"
  have hfull : ∀ unset, ¬ MeetsHollow expected actual "" "lora" unset := by
    rintro unset ⟨-, value, hget, hhollow⟩
    obtain rfl := Option.some.inj hget
    cases hhollow with
    | map _ hunset => exact Bool.false_ne_true (hunset ("region", .int 1) List.mem_cons_self)
  have halike := (compareFields_unset_alike_iff expected actual "" "lora" (.map []) .null
    hexpected hactual rfl rfl).mpr (not_or.mpr ⟨hfull _, hfull _⟩)
  refine ⟨hexpected, hactual, ?_⟩
  refine halike.resolve_left fun hnil => ?_
  have hlora := ((compareFields_without_iff "" "lora" hexpected hactual).mp hnil.2.2).2 _ rfl
  exact Bool.false_ne_true hlora

/-- A section with nothing set in it is met by an unset map, and by nothing else that is unset. -/
theorem compareFields_hollow_section :
    let expected : List (String × Value) := [("device", .map [("role", .null)])]
    let compared (actual : List (String × Value)) := compareFields expected actual ""
    compared (Fields.insert [] "device" (.map [])) = [] ∧
    compared (Fields.insert [] "device" .null) ≠ [] ∧
    compared (Fields.erase [] "device") ≠ [] := by
  intro expected compared
  refine ⟨?_, ?_, ?_⟩
  · rfl
  · exact List.cons_ne_nil _ _
  · exact List.cons_ne_nil _ _

end RadioAdmin.Compare
