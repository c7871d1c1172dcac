import Mathlib.Data.Set.List
import RadioAdmin.Proofs.Compare.Keys

/-!
# Lists that stand for sets

What is set in a list of texts, or in a list of keys under the name of a key field, is compared as a
set. The keys of a list are told one by one only if no number stands in the list itself: then no
list is one key as a whole, and each element has the key that it tells alone.
-/
namespace RadioAdmin

namespace KeyMaterial

/-- A text, a byte string, or a list of numbers that are all bytes. -/
def TellsKey : Value → Prop
  | .text _ | .bytes _ => True
  | .list items => ∀ item ∈ items, ∃ number : Int64,
      item = .int number ∧ 0 ≤ number.toInt ∧ number.toInt ≤ 255
  | _ => False

theorem isSome_byte? {number : Int64} (hlow : 0 ≤ number.toInt) (hhigh : number.toInt ≤ 255) :
    (byte? (.int number)).isSome = true := by
  have hbyte : 0 ≤ number.toInt ∧ number.toInt < 256 := by omega
  rw [byte?, if_pos hbyte, Option.isSome_some]

theorem isSome_mapM_byte? {items : List Value} (h : ∀ item ∈ items, (byte? item).isSome = true) :
    (items.mapM byte?).isSome = true := by
  induction items with
  | nil => rfl
  | cons item rest ih =>
    obtain ⟨hitem, hrest⟩ := List.forall_mem_cons.mp h
    obtain ⟨octet, hoctet⟩ := Option.isSome_iff_exists.mp hitem
    obtain ⟨octets, hoctets⟩ := Option.isSome_iff_exists.mp (ih hrest)
    simp [hoctet, hoctets]

theorem TellsKey.isSome_normalize? {value : Value} (h : TellsKey value)
    (hset : value.isEmpty = false) : (normalize? value).isSome = true := by
  cases value with
  | text string =>
    rw [Value.isEmpty] at hset
    rw [normalize?, hset]
    rfl
  | bytes octets =>
    rw [Value.isEmpty] at hset
    rw [normalize?, hset]
    rfl
  | list items =>
    rw [Value.isEmpty] at hset
    rw [normalize?, ofList, hset, if_neg Bool.false_ne_true]
    apply isSome_mapM_byte?
    intro item hitem
    obtain ⟨number, rfl, hlow, hhigh⟩ := h item hitem
    exact isSome_byte? hlow hhigh
  | null | bool _ | int _ | float _ | map _ => exact h.elim

/-- What tells a key is no single byte of one. -/
theorem TellsKey.byte?_eq_none {value : Value} (h : TellsKey value) : byte? value = none := by
  cases value with
  | int number => exact h.elim
  | _ => rfl

end KeyMaterial

namespace Compare

open KeyMaterial (byte? isKeyField normalize? ofList TellsKey)

/-- All that is set in a list are texts. -/
def HoldsTexts (items : List Value) : Prop :=
  ∀ item ∈ present items, ∃ string, item = .text string

/-- All that is set in a list tells keys. -/
def HoldsKeys (items : List Value) : Prop := ∀ item ∈ present items, TellsKey item

variable {items others : List Value} {field : String}

theorem mem_present {item : Value} : item ∈ present items ↔ item ∈ items ∧ item.isEmpty = false := by
  simp [present]

/-- What can be read as texts throughout is a list of texts. -/
theorem mapM_asText?_eq_some_iff {items : List Value} {texts : List String} :
    items.mapM Value.asText? = some texts ↔ items = texts.map Value.text := by
  induction items generalizing texts with
  | nil => cases texts <;> simp
  | cons item rest ih =>
    cases item with
    | text string => cases texts <;> simp [Value.asText?, Option.bind_eq_some_iff, ih, and_comm]
    | _ => cases texts <;> simp [Value.asText?]

theorem HoldsTexts.exists_texts (h : HoldsTexts items) :
    ∃ texts : List String, present items = texts.map Value.text := by
  have hrange : present items ∈ Set.range (List.map Value.text) := by
    rw [Set.range_list_map]
    intro item hitem
    obtain ⟨string, rfl⟩ := h item hitem
    exact Set.mem_range_self string
  obtain ⟨texts, htexts⟩ := hrange
  exact ⟨texts, htexts.symm⟩

/-- Outside of key fields lists of texts agree when the same texts are in them. -/
theorem listsAgree_texts (hfield : isKeyField field = false) (hitems : HoldsTexts items)
    (hothers : HoldsTexts others) :
    listsAgree items others field = true ↔
      ∀ string, .text string ∈ present items ↔ .text string ∈ present others := by
  obtain ⟨texts, htexts⟩ := hitems.exists_texts
  obtain ⟨strings, hstrings⟩ := hothers.exists_texts
  rw [listsAgree, hfield, if_neg Bool.false_ne_true, mapM_asText?_eq_some_iff.mpr htexts,
    mapM_asText?_eq_some_iff.mpr hstrings, htexts, hstrings]
  simp [sameMembers_iff]

/-- Where no number stands in the list itself the keys are those of the elements. -/
theorem keysOf_eq_filterMap (h : ∀ item ∈ items, byte? item = none) :
    keysOf items = items.filterMap normalize? := by
  have hlist : ofList items = none := by
    cases items with
    | nil => rfl
    | cons item rest =>
      obtain ⟨hitem, -⟩ := List.forall_mem_cons.mp h
      simp [ofList, hitem]
  rw [keysOf, hlist]

theorem HoldsKeys.mem_keysOf_iff (h : HoldsKeys items) (key : List UInt8) :
    key ∈ keysOf (present items) ↔ some key ∈ (present items).map normalize? := by
  rw [keysOf_eq_filterMap fun item hitem => (h item hitem).byte?_eq_none, List.mem_filterMap,
    List.mem_map]

/-- Whatever is set among keys has a key. -/
theorem HoldsKeys.none_notMem (h : HoldsKeys items) : none ∉ (present items).map normalize? := by
  intro hnone
  obtain ⟨item, hitem, heq⟩ := List.mem_map.mp hnone
  have hsome := (h item hitem).isSome_normalize? (mem_present.mp hitem).2
  rw [heq] at hsome
  cases hsome

/-- In a key field lists of keys agree when the same keys are told in them. -/
theorem listsAgree_keysTold (hfield : isKeyField field = true) (hitems : HoldsKeys items)
    (hothers : HoldsKeys others) :
    listsAgree items others field = true ↔
      ∀ key?, key? ∈ (present items).map normalize? ↔ key? ∈ (present others).map normalize? := by
  rw [listsAgree_iff_keysOf hfield]
  constructor
  · intro h key?
    cases key? with
    | none => exact iff_of_false hitems.none_notMem hothers.none_notMem
    | some key => rw [← hitems.mem_keysOf_iff, ← hothers.mem_keysOf_iff, h]
  · intro h key
    rw [hitems.mem_keysOf_iff, hothers.mem_keysOf_iff, h]

/-- Lists of a field that are both of the kind that the field compares as sets. -/
def AreSets (field : String) (items others : List Value) : Prop :=
  (isKeyField field = false ∧ HoldsTexts items ∧ HoldsTexts others) ∨
    (isKeyField field = true ∧ HoldsKeys items ∧ HoldsKeys others)

/-- Lists that compare as sets agree as well as any lists with the same set elements. -/
theorem AreSets.listsAgree_congr {kept left : List Value} (h : AreSets field items others)
    (hitems : ∀ item, item ∈ present kept ↔ item ∈ present items)
    (hothers : ∀ other, other ∈ present left ↔ other ∈ present others) :
    listsAgree kept left field = true ↔ listsAgree items others field = true := by
  rcases h with ⟨hfield, htexts, hstrings⟩ | ⟨hfield, hkeys, hspelt⟩
  · have hkept : HoldsTexts kept := fun item hitem => htexts item ((hitems item).mp hitem)
    have hleft : HoldsTexts left := fun other hother => hstrings other ((hothers other).mp hother)
    rw [listsAgree_texts hfield hkept hleft, listsAgree_texts hfield htexts hstrings]
    simp only [hitems, hothers]
  · have hkept : HoldsKeys kept := fun item hitem => hkeys item ((hitems item).mp hitem)
    have hleft : HoldsKeys left := fun other hother => hspelt other ((hothers other).mp hother)
    rw [listsAgree_keysTold hfield hkept hleft, listsAgree_keysTold hfield hkeys hspelt]
    simp only [List.mem_map, hitems, hothers]

/-- Lists of texts have no difference exactly when the same texts are in them, and in a key field
lists of keys exactly when they tell the same keys. So nothing but the set elements counts, in
whatever order and number they stand, and not what is unset between them. A difference of any two
lists is one mismatch of the field, with all that is set on each side in order. -/
theorem compareLists_sets (expected actual : List Value) (field : String) :
    (isKeyField field = false → HoldsTexts expected → HoldsTexts actual →
      (compareLists expected actual field = none ↔
        ∀ string, .text string ∈ present expected ↔ .text string ∈ present actual)) ∧
    (isKeyField field = true → HoldsKeys expected → HoldsKeys actual →
      (compareLists expected actual field = none ↔
        ∀ key?, key? ∈ (present expected).map normalize? ↔
          key? ∈ (present actual).map normalize?)) ∧
    (AreSets field expected actual → ∀ items others,
      (∀ item, item ∈ present items ↔ item ∈ present expected) →
      (∀ other, other ∈ present others ↔ other ∈ present actual) →
      (compareLists items others field = none ↔ compareLists expected actual field = none)) ∧
    ∀ difference, compareLists expected actual field = some difference →
      difference = .mismatch field
        (.list (expected.filter fun item => !item.isEmpty))
        (.list (actual.filter fun other => !other.isEmpty)) := by
  refine ⟨?texts, ?keys, ?congr, ?mismatch⟩
  case texts =>
    intro hfield hexpected hactual
    rw [compareLists_eq_none_iff]
    exact listsAgree_texts hfield hexpected hactual
  case keys =>
    intro hfield hexpected hactual
    rw [compareLists_eq_none_iff]
    exact listsAgree_keysTold hfield hexpected hactual
  case congr =>
    intro hsets items others hitems hothers
    rw [compareLists_eq_none_iff, compareLists_eq_none_iff]
    exact hsets.listsAgree_congr hitems hothers
  case mismatch =>
    intro difference hdifference
    rw [compareLists_eq] at hdifference
    split at hdifference
    · cases hdifference
    · exact (Option.some.inj hdifference).symm

/-- Two keys in four spellings, and texts that are in order again, repeated and mixed with what is
unset. -/
theorem compareLists_sets_rearranged :
    let keys : List Value := [.text "AQ==", .bytes [2]]
    let spelt : List Value := [.list [.int 2], .null, .text "01", .text "01"]
    let texts : List Value := [.text "a", .text "b"]
    let strings : List Value := [.text "b", .text "", .text "a", .text "b"]
    (isKeyField "security.Admin_Key" = true ∧ HoldsKeys keys ∧ HoldsKeys spelt ∧
      compareLists keys spelt "security.Admin_Key" = none) ∧
    (isKeyField "names" = false ∧ HoldsTexts texts ∧ HoldsTexts [.text "b"] ∧
      compareLists texts [.text "b"] "names" ≠ none) ∧
    AreSets "names" texts [.text "b"] ∧
    (∀ item, item ∈ present strings ↔ item ∈ present texts) ∧
    compareLists strings [.text "b"] "names" ≠ none := by
  intro keys spelt texts strings
  have hkeyField : isKeyField "security.Admin_Key" = true := by decide +kernel
  have hfield : isKeyField "names" = false := by decide +kernel
  have hkeys : HoldsKeys keys := by
    show ∀ item ∈ [Value.text "AQ==", .bytes [2]], TellsKey item
    simp [TellsKey]
  have hspelt : HoldsKeys spelt := by
    show ∀ item ∈ [Value.list [.int 2], .text "01", .text "01"], TellsKey item
    simp [TellsKey]
  have htexts : HoldsTexts texts := by
    show ∀ item ∈ [Value.text "a", .text "b"], ∃ string, item = .text string
    simp
  have hother : HoldsTexts [.text "b"] := by
    show ∀ item ∈ [Value.text "b"], ∃ string, item = .text string
    simp
  have hsame : ∀ item, item ∈ present strings ↔ item ∈ present texts := by
    show ∀ item, item ∈ [Value.text "b", .text "a", .text "b"] ↔ item ∈ [Value.text "a", .text "b"]
    intro item
    simp only [List.mem_cons, List.not_mem_nil, or_false]
    tauto
  have hnone : compareLists keys spelt "security.Admin_Key" = none := by
    refine ((compareLists_sets keys spelt _).2.1 hkeyField hkeys hspelt).mpr ?_
    show ∀ key?, key? ∈ [some [1], some [2]] ↔ key? ∈ [some [2], some [1], some [1]]
    intro key?
    simp only [List.mem_cons, List.not_mem_nil, or_false]
    tauto
  have hmissing : compareLists texts [.text "b"] "names" ≠ none := by
    intro h
    have hset := ((compareLists_sets texts [.text "b"] _).1 hfield htexts hother).mp h "a"
    have hin : Value.text "a" ∈ [Value.text "b"] := hset.mp List.mem_cons_self
    simp at hin
  have hsets : AreSets "names" texts [.text "b"] := .inl ⟨hfield, htexts, hother⟩
  exact ⟨⟨hkeyField, hkeys, hspelt, hnone⟩, ⟨hfield, htexts, hother, hmissing⟩, hsets, hsame,
    fun h => hmissing (((compareLists_sets texts [.text "b"] "names").2.2.1 hsets strings
      [.text "b"] hsame fun _ => Iff.rfl).mp h)⟩

end Compare

end RadioAdmin
