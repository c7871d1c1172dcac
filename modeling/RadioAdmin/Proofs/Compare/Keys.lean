import RadioAdmin.Proofs.Compare.Agreement
import RadioAdmin.Proofs.FieldPath

/-!
# Agreement in key fields

In a key field two set values agree when they spell the same keys. They also agree when there is
no key left to compare: a value that does not decode counts as no key, and so do the elements of a
list that do not decode. So two values that are not keys agree with each other, whatever they are.
-/
namespace RadioAdmin.Compare

open KeyMaterial (fieldNames isKeyField isSpelling normalize? ofList)

/-- Whether nothing that is set in a list gets lost when its keys are read: the list is one key or
each of its set elements is one. -/
def Decodes (items : List Value) : Prop :=
  (ofList (present items)).isSome = true ∨ ∀ item ∈ present items, (normalize? item).isSome = true

/-- Whether two values of a key field decode, and to the same keys. -/
def SameKeys : Value → Value → Prop
  | .list a, .list b =>
    (Decodes a ∧ Decodes b) ∧ ∀ key, key ∈ keysOf (present a) ↔ key ∈ keysOf (present b)
  | a, b => ∃ key, normalize? a = some key ∧ normalize? b = some key

/-- Whether two values of a key field differ, if at all, in what does not decode. -/
def PassedOver : Value → Value → Prop
  | .list a, .list b =>
    ¬(Decodes a ∧ Decodes b) ∧ ∀ key, key ∈ keysOf (present a) ↔ key ∈ keysOf (present b)
  | a, b => normalize? a = none ∧ normalize? b = none

variable {expected actual : Value}

theorem sameMembers_iff {α : Type} [BEq α] [LawfulBEq α] (a b : List α) :
    sameMembers a b = true ↔ ∀ x, x ∈ a ↔ x ∈ b := by
  rw [sameMembers, Bool.and_eq_true, List.all_eq_true, List.all_eq_true]
  simp only [List.contains_iff_mem]
  constructor
  · intro h x
    exact ⟨h.1 x, h.2 x⟩
  · intro h
    exact ⟨fun x hx => (h x).mp hx, fun x hx => (h x).mpr hx⟩

theorem sameKeys_iff_of_not_lists (h : ∀ a b, expected = .list a → actual ≠ .list b) :
    SameKeys expected actual ↔
      ∃ key, normalize? expected = some key ∧ normalize? actual = some key := by
  rw [SameKeys.eq_def]
  split
  · exact absurd rfl (h _ _ rfl)
  · rfl

theorem passedOver_iff_of_not_lists (h : ∀ a b, expected = .list a → actual ≠ .list b) :
    PassedOver expected actual ↔ normalize? expected = none ∧ normalize? actual = none := by
  rw [PassedOver.eq_def]
  split
  · exact absurd rfl (h _ _ rfl)
  · rfl

theorem not_passedOver_of_sameKeys (h : SameKeys expected actual) :
    ¬ PassedOver expected actual := by
  by_cases hlists : ∃ a b, expected = .list a ∧ actual = .list b
  · obtain ⟨a, b, rfl, rfl⟩ := hlists
    exact fun hpassed => hpassed.1 h.1
  · have hnot : ∀ a b, expected = .list a → actual ≠ .list b :=
      fun a b ha hb => hlists ⟨a, b, ha, hb⟩
    rw [sameKeys_iff_of_not_lists hnot] at h
    obtain ⟨key, hkey, -⟩ := h
    rw [passedOver_iff_of_not_lists hnot, hkey]
    rintro ⟨hnone, -⟩
    cases hnone

/-- In a key field lists agree when the same keys are in them. -/
theorem listsAgree_iff_keysOf {a b : List Value} {field : String}
    (hfield : isKeyField field = true) :
    listsAgree a b field = true ↔ ∀ key, key ∈ keysOf (present a) ↔ key ∈ keysOf (present b) := by
  rw [listsAgree, if_pos hfield, sameMembers_iff]

theorem listsAgree_keys {a b : List Value} {field : String} (hfield : isKeyField field = true) :
    listsAgree a b field = true ↔
      SameKeys (.list a) (.list b) ∨ PassedOver (.list a) (.list b) := by
  rw [listsAgree_iff_keysOf hfield]
  constructor
  · intro h
    by_cases hd : Decodes a ∧ Decodes b
    · exact Or.inl ⟨hd, h⟩
    · exact Or.inr ⟨hd, h⟩
  · rintro (h | h)
    · exact h.2
    · exact h.2

theorem normalize?_eq_iff :
    normalize? expected = normalize? actual ↔
      (∃ key, normalize? expected = some key ∧ normalize? actual = some key) ∨
        (normalize? expected = none ∧ normalize? actual = none) := by
  cases he : normalize? expected with
  | none => simp [eq_comm]
  | some key => simp [eq_comm]

/-- Two set values of a key field, one of them a spelling at least, agree exactly when they decode
to the same keys or differ in nothing that decodes. -/
theorem valuesAgree_keys {field : String} (hfield : isKeyField field = true)
    (he : expected.isEmpty = false) (ha : actual.isEmpty = false)
    (hspelling : isSpelling expected = true ∨ isSpelling actual = true) :
    valuesAgree expected actual field false = true ↔
      SameKeys expected actual ∨ PassedOver expected actual := by
  by_cases hlists : ∃ a b, expected = .list a ∧ actual = .list b
  · obtain ⟨a, b, rfl, rfl⟩ := hlists
    have hset : a ≠ [] ∧ b ≠ [] := by
      constructor
      · rintro rfl
        cases he
      · rintro rfl
        cases ha
    rw [valuesAgree_lists_eq field false hset.1 hset.2]
    exact listsAgree_keys hfield
  · have hnot : ∀ a b, expected = .list a → actual ≠ .list b :=
      fun a b ha hb => hlists ⟨a, b, ha, hb⟩
    have hmaps : ∀ a b, expected = .map a → actual ≠ .map b := by
      rintro a b rfl rfl
      rcases hspelling with h | h <;> cases h
    rw [valuesAgree_mixed field false he ha hmaps hnot, leavesAgree, hfield, Bool.or_true,
      if_pos (by simpa using hspelling), beq_iff_eq, normalize?_eq_iff,
      sameKeys_iff_of_not_lists hnot, passedOver_iff_of_not_lists hnot]

/-- What agrees in a key field is the same or decodes to the same keys, exactly if what does not
decode on the two sides is the same. -/
theorem valuesAgree_decoded (expected actual : Value) (field : String)
    (hfield : ∃ last, last.toLower ∈ fieldNames ∧
      (field = last ∨ ∃ path, field = path ++ "." ++ last))
    (he : expected.isEmpty = false) (ha : actual.isEmpty = false)
    (hspelling : isSpelling expected = true ∨ isSpelling actual = true) :
    (valuesAgree expected actual field false = true ↔
      SameKeys expected actual ∨ PassedOver expected actual) ∧
    ((valuesAgree expected actual field false = true →
      Value.same expected actual = true ∨ SameKeys expected actual) ↔
      (PassedOver expected actual → Value.same expected actual = true)) := by
  have hagree := valuesAgree_keys ((KeyMaterial.isKeyField_iff field).mpr hfield) he ha hspelling
  refine ⟨hagree, fun h hpassed => ?_, fun h hagreed => ?_⟩
  · have hsame := h (hagree.mpr (Or.inr hpassed))
    exact hsame.resolve_right fun hkeys => not_passedOver_of_sameKeys hkeys hpassed
  · rcases hagree.mp hagreed with hkeys | hpassed
    · exact Or.inr hkeys
    · exact Or.inl (h hpassed)

/-- A list of two bytes is the key that the two bytes are. -/
theorem valuesAgree_decoded_bytes :
    let expected : Value := .list [.int 1, .int 2]
    let actual : Value := .bytes [1, 2]
    ("Psk".toLower ∈ fieldNames ∧ "security.Psk" = "security" ++ "." ++ "Psk") ∧
      valuesAgree expected actual "security.Psk" false = true ∧ SameKeys expected actual := by
  intro expected actual
  have hname : "Psk".toLower ∈ fieldNames := by decide +kernel
  have hkeys : SameKeys expected actual := ⟨[1, 2], by decide, by decide⟩
  have hagree := valuesAgree_decoded expected actual "security.Psk"
    ⟨"Psk", hname, Or.inr ⟨"security", rfl⟩⟩ rfl rfl (Or.inl rfl)
  exact ⟨⟨hname, rfl⟩, hagree.1.mpr (Or.inl hkeys), hkeys⟩

/-- Two lists of a number that is no byte agree, whatever the numbers are. -/
theorem valuesAgree_undecoded_numbers :
    let expected : Value := .list [.int 300]
    let actual : Value := .list [.int 400]
    valuesAgree expected actual "psk" false = true ∧ Value.same expected actual = false ∧
      ¬ SameKeys expected actual := by
  intro expected actual
  have hfield : isKeyField "psk" = true := by decide +kernel
  have hkeys : ∀ key, key ∈ keysOf (present [.int 300]) ↔ key ∈ keysOf (present [.int 400]) := by
    have hleft : keysOf (present [.int 300]) = [] := by decide
    have hright : keysOf (present [.int 400]) = [] := by decide
    rw [hleft, hright]
    exact fun _ => Iff.rfl
  have hundecoded : ¬ Decodes [.int 300] := by
    have hlist : (ofList (present [.int 300])).isSome = false := by decide
    rintro (hwhole | heach)
    · rw [hlist] at hwhole
      cases hwhole
    · have hitem : (normalize? (.int 300)).isSome = true := heach (.int 300) List.mem_cons_self
      cases hitem
  have hpassed : PassedOver expected actual := ⟨fun h => hundecoded h.1, hkeys⟩
  exact ⟨(valuesAgree_keys hfield rfl rfl (Or.inl rfl)).mpr (Or.inr hpassed), by decide,
    fun h => not_passedOver_of_sameKeys h hpassed⟩

end RadioAdmin.Compare
