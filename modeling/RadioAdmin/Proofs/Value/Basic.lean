import Mathlib.Data.List.Forall2
import Mathlib.Data.List.Perm.Subperm
import RadioAdmin.Proofs.Fields
import RadioAdmin.Value.Basic

/-!
# Induction over values, and values that are the same

Two values that are the same have the same shape, and what one holds the other holds in the
same place: in order for lists, under the same key for maps. They need not be equal, since
zeros of both signs compare as equal and maps may list their keys in another order.
-/
namespace RadioAdmin.Value

/-- Induction over the entries of a map and of the maps below it. -/
theorem fields_induction {motive : List (String × Value) → Prop} (nil : motive [])
    (cons : ∀ key value rest, (∀ inner, value = .map inner → motive inner) → motive rest →
      motive ((key, value) :: rest)) (fields : List (String × Value)) : motive fields :=
  match fields with
  | [] => nil
  | (key, value) :: rest =>
    cons key value rest
      (fun inner _ => fields_induction nil cons inner)
      (fields_induction nil cons rest)
termination_by sizeOf fields
decreasing_by
  · subst value
    simp only [List.cons.sizeOf_spec, Prod.mk.sizeOf_spec, map.sizeOf_spec]
    omega
  · simp only [List.cons.sizeOf_spec]
    omega

/-- Induction over a value with a hypothesis for each member of a list or map. -/
theorem members_induction {motive : Value → Prop}
    (leaf : ∀ value, (∀ items, value ≠ .list items) → (∀ fields, value ≠ .map fields) →
      motive value)
    (list : ∀ items, (∀ item ∈ items, motive item) → motive (.list items))
    (map : ∀ fields, (∀ entry ∈ fields, motive entry.2) → motive (.map fields))
    (value : Value) : motive value :=
  match value with
  | .list items => list items fun item _ => members_induction leaf list map item
  | .map fields => map fields fun entry _ => members_induction leaf list map entry.2
  | .null | .bool _ | .int _ | .float _ | .text _ | .bytes _ =>
    leaf _ (fun _ h => by cases h) (fun _ h => by cases h)
termination_by sizeOf value
decreasing_by
  · have h := List.sizeOf_lt_of_mem ‹item ∈ items›
    simp only [Value.list.sizeOf_spec]
    omega
  · have h := List.sizeOf_lt_of_mem ‹entry ∈ fields›
    obtain ⟨key, content⟩ := entry
    simp only [Value.map.sizeOf_spec, Prod.mk.sizeOf_spec] at h ⊢
    omega

mutual

/-- All doubles in a value are finite, at every depth. -/
def AllFinite : Value → Prop
  | .float number => number.isFinite = true
  | .list items => AllFiniteItems items
  | .map fields => AllFiniteFields fields
  | _ => True

def AllFiniteItems : List Value → Prop
  | [] => True
  | item :: rest => AllFinite item ∧ AllFiniteItems rest

def AllFiniteFields : List (String × Value) → Prop
  | [] => True
  | (_, content) :: rest => AllFinite content ∧ AllFiniteFields rest

end

theorem allFiniteItems_iff (items : List Value) :
    AllFiniteItems items ↔ ∀ item ∈ items, AllFinite item := by
  induction items with
  | nil => simp [AllFiniteItems]
  | cons item rest ih => simp [AllFiniteItems, ih]

theorem allFiniteFields_iff (fields : List (String × Value)) :
    AllFiniteFields fields ↔ ∀ entry ∈ fields, AllFinite entry.2 := by
  induction fields with
  | nil => simp [AllFiniteFields]
  | cons entry rest ih => simp [AllFiniteFields, ih]

theorem wellFormedItems_iff (items : List Value) :
    WellFormedItems items ↔ ∀ item ∈ items, WellFormed item := by
  induction items with
  | nil => simp [WellFormedItems]
  | cons item rest ih => simp [WellFormedItems, ih]

theorem wellFormedFields_iff (fields : List (String × Value)) :
    WellFormedFields fields ↔ ∀ entry ∈ fields, WellFormed entry.2 := by
  induction fields with
  | nil => simp [WellFormedFields]
  | cons entry rest ih => simp [WellFormedFields, ih]

theorem sameItems_iff (a b : List Value) :
    sameItems a b = true ↔ List.Forall₂ (fun x y => same x y = true) a b := by
  induction a generalizing b with
  | nil => cases b <;> simp [sameItems]
  | cons x a ih => cases b <;> simp [sameItems, ih]

theorem sameFields_iff (a b : List (String × Value)) :
    sameFields a b = true ↔
      ∀ entry ∈ a, ∃ found, Fields.get? b entry.1 = some found ∧ same entry.2 found = true := by
  induction a with
  | nil => simp [sameFields]
  | cons entry a ih =>
    rw [sameFields, Bool.and_eq_true, ih, List.forall_mem_cons]
    cases Fields.get? b entry.1 <;> simp

/-- Values that are the same are equal, or are doubles, lists or maps of the same contents. -/
theorem same_cases {a b : Value} (h : same a b = true) :
    (a = b ∧ (∀ number, a ≠ .float number) ∧ (∀ items, a ≠ .list items) ∧
      ∀ fields, a ≠ .map fields) ∨
    (∃ x y, a = .float x ∧ b = .float y ∧ (x == y) = true) ∨
    (∃ items others, a = .list items ∧ b = .list others ∧ sameItems items others = true) ∨
    ∃ fields others, a = .map fields ∧ b = .map others ∧ fields.length = others.length ∧
      sameFields fields others = true := by
  cases a <;> cases b <;> simp_all [same]

theorem isEmpty_map {fields : List (String × Value)} (h : fields ≠ []) :
    (map fields).isEmpty = false := by
  rw [isEmpty, Bool.eq_false_iff]
  exact fun hempty => h (List.isEmpty_iff.mp hempty)

theorem isEmpty_of_same {a b : Value} (h : same a b = true) : a.isEmpty = b.isEmpty := by
  rcases same_cases h with ⟨rfl, -⟩ | ⟨x, y, rfl, rfl, -⟩ | ⟨items, others, rfl, rfl, hs⟩ |
    ⟨fields, others, rfl, rfl, hlength, -⟩
  · rfl
  · rfl
  · rw [sameItems_iff] at hs
    cases hs <;> rfl
  · rw [isEmpty, isEmpty, Bool.eq_iff_iff, List.isEmpty_iff_length_eq_zero, hlength,
      List.isEmpty_iff_length_eq_zero]

/-- Maps that are the same have the same keys, and each key holds the same on both sides. -/
theorem exists_get?_of_same {a b : List (String × Value)} {key : String} {found : Value}
    (hd : Fields.Distinct a) (hsame : same (.map a) (.map b) = true)
    (hget : Fields.get? b key = some found) :
    ∃ value, Fields.get? a key = some value ∧ same value found = true := by
  rw [same, Bool.and_eq_true, beq_iff_eq, sameFields_iff] at hsame
  obtain ⟨hlength, hfields⟩ := hsame
  have hsub : Fields.names a ⊆ Fields.names b := by
    intro name hname
    obtain ⟨entry, hentry, rfl⟩ := List.mem_map.mp hname
    obtain ⟨other, hother, -⟩ := hfields entry hentry
    exact Fields.mem_names_of_get? hother
  -- Only the keys of one side are looked up, but they are distinct and as many as the others.
  have hperm : (Fields.names a).Perm (Fields.names b) :=
    (List.Nodup.subperm hd hsub).perm_of_length_le (by simp [Fields.names, hlength])
  obtain ⟨entry, hentry, rfl⟩ := List.mem_map.mp (hperm.mem_iff.mpr (Fields.mem_names_of_get? hget))
  obtain ⟨other, hother, hsame⟩ := hfields entry hentry
  obtain rfl := Option.some.inj (hget.symm.trans hother)
  exact ⟨entry.2, Fields.get?_of_mem hd hentry, hsame⟩

end RadioAdmin.Value
