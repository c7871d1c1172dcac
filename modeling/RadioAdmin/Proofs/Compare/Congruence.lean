import RadioAdmin.Compare.Configuration
import RadioAdmin.Proofs.Compare.Entry

/-!
# Relations that no comparison sees

A comparison takes two values apart in step and reads their leaves. So it finds no difference
between two values of the same shape whose leaves all read alike, whatever the reason is that
they do.
-/
namespace RadioAdmin.Compare

open KeyMaterial (byte? ofList normalize? isKeyField)

/-- Two leaves that read alike in every field. -/
structure ReadAlike (a b : Value) : Prop where
  leaf : isContainer b = false
  isEmpty : a.isEmpty = b.isEmpty
  byte : byte? a = byte? b
  key : normalize? a = normalize? b
  text : ∀ s t, a.asText? = some s → b.asText? = some t → s = t
  coerced : coerced a b = true

/-- A relation of values of the same shape. Related leaves read alike; related lists hold related
elements in the same order and related maps related values under the same keys. -/
structure Congruent (R : Value → Value → Prop) : Prop where
  leaf : ∀ {a b}, R a b → isContainer a = false → ReadAlike a b
  list : ∀ {items b}, R (.list items) b → ∃ others, b = .list others ∧ List.Forall₂ R items others
  map : ∀ {fields b}, R (.map fields) b → ∃ others, b = .map others ∧
    fields.length = others.length ∧
    ∀ entry ∈ fields, ∃ found, Fields.get? others entry.1 = some found ∧ R entry.2 found

theorem sameMembers_self {α : Type} [BEq α] [LawfulBEq α] (a : List α) :
    sameMembers a a = true := by
  rw [sameMembers, Bool.and_self, List.all_eq_true]
  exact fun x hx => List.contains_iff_mem.mpr hx

/-- Lists that agree have no difference, and neither have two empty ones. -/
theorem compareLists_eq_none {items others : List Value} {field : String} {flag : Bool}
    (hempty : items.isEmpty = others.isEmpty)
    (h : valuesAgree (.list items) (.list others) field flag = true) :
    compareLists items others field = none := by
  have hnil : items = [] ↔ others = [] := by rw [← List.isEmpty_iff, hempty, List.isEmpty_iff]
  by_cases hi : items = []
  · obtain rfl := hnil.mp hi
    subst hi
    rw [compareLists_eq_none_iff, listsAgree]
    split
    · rfl
    · rfl
  · rw [compareLists_eq_none_iff, ← valuesAgree_lists_eq field flag hi (hnil.not.mp hi)]
    exact h

/-- Maps that agree have no difference, wherever the comparison begins. -/
theorem compareFields_eq_nil {fields others : List (String × Value)} {field : String}
    {flag : Bool} (path : String)
    (h : valuesAgree (.map fields) (.map others) field flag = true) :
    compareFields fields others path = [] := by
  by_cases hf : fields = []
  · rw [hf, compareFields_nil]
  have ho : others ≠ [] := by
    rintro rfl
    rw [valuesAgree_unset field flag (Or.inr rfl)] at h
    simp [Value.isEmpty, hf] at h
  rw [valuesAgree_maps field flag hf ho, List.isEmpty_iff] at h
  have hc := compareFields_contents fields others path ""
  rw [h, List.map_nil] at hc
  exact List.map_eq_nil_iff.mp hc

/-- A map without a key of its own has no extra fields. -/
theorem extras_eq_nil_of_subset {expected actual : List (String × Value)}
    (h : Fields.names actual ⊆ Fields.names expected) : extras expected actual = [] := by
  rw [extras, List.map_eq_nil_iff, List.filter_eq_nil_iff]
  intro entry hentry
  have hhas : Fields.has expected entry.1 = true :=
    Fields.has_iff.mpr (h (List.mem_map_of_mem hentry))
  rw [hhas, Bool.not_true, Bool.false_and]
  decide

theorem isContainer_eq_false {value : Value} (hlists : ∀ items, value ≠ .list items)
    (hmaps : ∀ fields, value ≠ .map fields) : isContainer value = false := by
  cases value with
  | list items => exact absurd rfl (hlists items)
  | map fields => exact absurd rfl (hmaps fields)
  | _ => rfl

namespace Congruent

variable {R : Value → Value → Prop} {a b : Value} {items others : List Value}

/-- A relation stays one of the same shape when its left side is restricted by a property that
passes on to members. -/
theorem restrict (hR : Congruent R) {P : Value → Prop}
    (hlist : ∀ {items}, P (.list items) → ∀ item ∈ items, P item)
    (hmap : ∀ {fields}, P (.map fields) → ∀ entry ∈ fields, P entry.2) :
    Congruent fun a b => P a ∧ R a b where
  leaf := fun ⟨_, hab⟩ hleaf => hR.leaf hab hleaf
  list := by
    rintro items b ⟨hP, hab⟩
    obtain ⟨others, rfl, hitems⟩ := hR.list hab
    exact ⟨others, rfl, (List.forall₂_and_left items others).mpr ⟨hlist hP, hitems⟩⟩
  map := by
    rintro fields b ⟨hP, hab⟩
    obtain ⟨others, rfl, hlength, hentries⟩ := hR.map hab
    refine ⟨others, rfl, hlength, fun entry hentry => ?_⟩
    obtain ⟨found, hget, hfound⟩ := hentries entry hentry
    exact ⟨found, hget, hmap hP entry hentry, hfound⟩

theorem map_eq_of_forall₂ {α : Type} (read : Value → α)
    (hread : ∀ x y, R x y → read x = read y) (h : List.Forall₂ R items others) :
    items.map read = others.map read := by
  rw [← List.forall₂_eq_eq_eq, List.forall₂_map_left_iff, List.forall₂_map_right_iff]
  exact h.imp hread

theorem isEmpty_eq (hR : Congruent R) (hab : R a b) : a.isEmpty = b.isEmpty := by
  cases a with
  | list items =>
    obtain ⟨others, rfl, hitems⟩ := hR.list hab
    cases hitems <;> rfl
  | map fields =>
    obtain ⟨others, rfl, hlength, -⟩ := hR.map hab
    rw [Value.isEmpty, Value.isEmpty, Bool.eq_iff_iff, List.isEmpty_iff_length_eq_zero, hlength,
      List.isEmpty_iff_length_eq_zero]
  | _ => exact (hR.leaf hab rfl).isEmpty

theorem byte?_eq (hR : Congruent R) (hab : R a b) : byte? a = byte? b := by
  cases a with
  | list items =>
    obtain ⟨others, rfl, -⟩ := hR.list hab
    rfl
  | map fields =>
    obtain ⟨others, rfl, -⟩ := hR.map hab
    rfl
  | _ => exact (hR.leaf hab rfl).byte

theorem ofList_eq (hR : Congruent R) (h : List.Forall₂ R items others) :
    ofList items = ofList others := by
  have hbytes : items.map byte? = others.map byte? :=
    map_eq_of_forall₂ byte? (fun _ _ => hR.byte?_eq) h
  have hmapM : items.mapM byte? = others.mapM byte? := by
    rw [← Function.id_comp byte?, ← List.mapM_map, hbytes, List.mapM_map]
  have hempty : items.isEmpty = others.isEmpty := by cases h <;> rfl
  rw [ofList, ofList, hmapM, hempty]

/-- Related values spell the same key. -/
theorem normalize?_eq (hR : Congruent R) (hab : R a b) : normalize? a = normalize? b := by
  cases a with
  | list items =>
    obtain ⟨others, rfl, hitems⟩ := hR.list hab
    exact hR.ofList_eq hitems
  | map fields =>
    obtain ⟨others, rfl, -⟩ := hR.map hab
    rfl
  | _ => exact (hR.leaf hab rfl).key

theorem keysOf_eq (hR : Congruent R) (h : List.Forall₂ R items others) :
    keysOf items = keysOf others := by
  have hkeys : items.map normalize? = others.map normalize? :=
    map_eq_of_forall₂ normalize? (fun _ _ => hR.normalize?_eq) h
  have hfilterMap : items.filterMap normalize? = others.filterMap normalize? := by
    rw [← Function.id_comp normalize?, ← List.filterMap_map, hkeys, List.filterMap_map]
  rw [keysOf, keysOf, hR.ofList_eq h, hfilterMap]

/-- Where both sides are texts, they are the same text. -/
theorem text_eq (hR : Congruent R) (hab : R a b) {s t : String} (hs : a.asText? = some s)
    (ht : b.asText? = some t) : s = t := by
  cases a with
  | list items => cases hs
  | map fields => cases hs
  | _ => exact (hR.leaf hab rfl).text s t hs ht

theorem texts_eq (hR : Congruent R) (h : List.Forall₂ R items others) {texts strings : List String}
    (ht : items.mapM Value.asText? = some texts) (hs : others.mapM Value.asText? = some strings) :
    texts = strings := by
  induction h generalizing texts strings with
  | nil => exact Option.some.inj (ht.symm.trans hs)
  | cons hhead _ ih =>
    simp only [List.mapM_cons, Option.bind_eq_bind, Option.bind_eq_some_iff] at ht hs
    obtain ⟨text, htext, rest, hrest, ht⟩ := ht
    obtain ⟨string, hstring, remains, hremains, hs⟩ := hs
    obtain rfl := hR.text_eq hhead htext hstring
    obtain rfl := ih hrest hremains
    exact Option.some.inj (ht.symm.trans hs)

theorem forall₂_present (hR : Congruent R) (h : List.Forall₂ R items others) :
    List.Forall₂ R (present items) (present others) := by
  refine List.rel_filter (fun x y hxy => ?_) h
  show ((!x.isEmpty) = true ↔ (!y.isEmpty) = true)
  rw [hR.isEmpty_eq hxy]

theorem itemsAgree (hR : Congruent R) {field : String} (h : List.Forall₂ R items others)
    (hagree : ∀ item ∈ items, ∀ other, R item other → valuesAgree item other field false = true) :
    itemsAgree items (present others) field = true := by
  induction h with
  | nil => rw [present, List.filter_nil, itemsAgree_nil, List.isEmpty_nil]
  | @cons item other items others hhead _ ih =>
    have hempty := hR.isEmpty_eq hhead
    have hrest := ih fun x hx => hagree x (List.mem_cons_of_mem _ hx)
    rw [present] at hrest ⊢
    rw [List.filter_cons, ← hempty]
    cases hi : item.isEmpty
    · rw [if_pos (by decide), itemsAgree_cons_set items other _ field hi,
        hagree item List.mem_cons_self other hhead, hrest, Bool.and_self]
    · rw [if_neg (by decide), itemsAgree_cons_unset items _ field hi, hrest]

/-- Related lists agree in every field when their elements do. -/
theorem listsAgree (hR : Congruent R) (field : String) (h : List.Forall₂ R items others)
    (hagree : ∀ item ∈ items, ∀ other, R item other →
      ∀ field, valuesAgree item other field false = true) :
    listsAgree items others field = true := by
  have hpresent := hR.forall₂_present h
  rw [Compare.listsAgree, hR.keysOf_eq hpresent]
  split
  · exact sameMembers_self _
  · split
    · rename_i ha hb
      obtain rfl := hR.texts_eq hpresent ha hb
      exact sameMembers_self _
    · exact hR.itemsAgree h fun item hitem other ho => hagree item hitem other ho _

/-- An entry that the other side has with a related value has no record when the values agree. -/
theorem entryDifference?_eq_none (hR : Congruent R) (hab : R a b) {key field : String}
    (hagree : ∀ name, valuesAgree a b name false = true) :
    entryDifference? key field a (some b) = none := by
  have hempty := hR.isEmpty_eq hab
  cases a with
  | list items =>
    obtain ⟨others, rfl, -⟩ := hR.list hab
    rw [entryDifference?]
    exact compareLists_eq_none hempty (hagree field)
  | map fields =>
    obtain ⟨others, rfl, -⟩ := hR.map hab
    rw [entryDifference?]
  | _ => rw [entryDifference?_leaf rfl, if_pos (hagree key)]

/-- Related maps have no difference when their contents agree. -/
theorem compareFields_eq_nil_of_agree (hR : Congruent R) {fields others : List (String × Value)}
    (path : String)
    (hfields : ∀ entry ∈ fields, ∃ found, Fields.get? others entry.1 = some found ∧ R entry.2 found)
    (hagree : ∀ entry ∈ fields, ∀ other, R entry.2 other →
      ∀ field, valuesAgree entry.2 other field false = true) :
    compareFields fields others path = [] := by
  induction fields with
  | nil => exact compareFields_nil others path
  | cons entry rest ih =>
    obtain ⟨key, value⟩ := entry
    obtain ⟨⟨found, hget, hfound⟩, hrest⟩ := List.forall_mem_cons.mp hfields
    have hvalue := hagree (key, value) List.mem_cons_self found hfound
    have hbelow := ih hrest fun other hmem => hagree other (List.mem_cons_of_mem _ hmem)
    by_cases hmaps : ∃ a b, value = .map a ∧ found = .map b
    · obtain ⟨a, b, rfl, rfl⟩ := hmaps
      rw [compareFields_cons_maps rest path hget, hbelow, compareFields_eq_nil _ (hvalue key),
        List.append_nil]
    · rw [compareFields_cons_entry rest path, hget, hbelow,
        hR.entryDifference?_eq_none hfound hvalue, Option.toList_none, List.append_nil]
      intro a b ha hb
      exact hmaps ⟨a, b, ha, Option.some.inj (hget.symm.trans hb)⟩

theorem leavesAgree (hR : Congruent R) (hab : R a b) (hleaf : isContainer a = false)
    (flag : Bool) : leavesAgree a b flag = true := by
  rw [Compare.leavesAgree, hR.normalize?_eq hab]
  split
  · exact BEq.rfl
  · exact (hR.leaf hab hleaf).coerced

theorem valuesAgree_unset (hR : Congruent R) (hab : R a b) (field : String) (flag : Bool)
    (h : a.isEmpty = true) : valuesAgree a b field flag = true := by
  rw [Compare.valuesAgree_unset field flag (Or.inl h), ← hR.isEmpty_eq hab, h, Bool.and_self]

/-- Related values agree in every field. -/
theorem valuesAgree (hR : Congruent R) (a : Value) :
    ∀ b, R a b → ∀ field flag, valuesAgree a b field flag = true := by
  -- The members of lists and maps are compared in fields of their own and without the flag, so
  -- that the hypotheses have to hold for every field and flag.
  induction a using Value.members_induction with
  | leaf a hlists hmaps =>
    intro b hab field flag
    cases he : a.isEmpty with
    | true => exact hR.valuesAgree_unset hab field flag he
    | false =>
      have hleaf := isContainer_eq_false hlists hmaps
      have hset : b.isEmpty = false := (hR.isEmpty_eq hab).symm.trans he
      rw [valuesAgree_leaf field flag he hset hleaf]
      exact hR.leavesAgree hab hleaf _
  | list items ih =>
    intro b hab field flag
    cases he : (Value.list items).isEmpty with
    | true => exact hR.valuesAgree_unset hab field flag he
    | false =>
      have hempty := hR.isEmpty_eq hab
      obtain ⟨others, rfl, hitems⟩ := hR.list hab
      have hlists : Compare.listsAgree items others field = true :=
        hR.listsAgree field hitems fun item hitem other ho name => ih item hitem other ho name false
      rw [he] at hempty
      rw [valuesAgree_lists_eq field flag (by rintro rfl; cases he) (by rintro rfl; cases hempty),
        hlists]
  | map fields ih =>
    intro b hab field flag
    cases he : (Value.map fields).isEmpty with
    | true => exact hR.valuesAgree_unset hab field flag he
    | false =>
      have hempty := hR.isEmpty_eq hab
      obtain ⟨others, rfl, -, hentries⟩ := hR.map hab
      have hfields : compareFields fields others "" = [] :=
        hR.compareFields_eq_nil_of_agree "" hentries fun entry hentry other ho name =>
          ih entry hentry other ho name false
      rw [he] at hempty
      rw [valuesAgree_maps field flag (by rintro rfl; cases he) (by rintro rfl; cases hempty),
        hfields, List.isEmpty_nil]

/-- Related configurations come in the same envelope with related contents, or both without
one. -/
theorem unwrap? (hR : Congruent R) (hab : R a b) : Option.Rel R (unwrap? a) (unwrap? b) := by
  cases a with
  | list items =>
    obtain ⟨others, rfl, -⟩ := hR.list hab
    exact .none
  | map fields =>
    obtain ⟨others, rfl, hlength, hentries⟩ := hR.map hab
    match fields, others, hlength with
    | [], [], _ => exact .none
    | [(key, inner)], [(other, content)], _ =>
      obtain ⟨found, hget, hfound⟩ := hentries (key, inner) List.mem_cons_self
      by_cases hkey : other = key
      · subst hkey
        rw [Fields.get?_cons_self] at hget
        obtain rfl := Option.some.inj hget
        rw [Compare.unwrap?, Compare.unwrap?]
        split
        · exact .some hfound
        · exact .none
      · rw [Fields.get?_cons_of_ne content [] hkey] at hget
        cases hget
    | _ :: _ :: _, _ :: _ :: _, _ => exact .none
  | _ =>
    have hleaf := (hR.leaf hab rfl).leaf
    cases b with
    | map fields => cases hleaf
    | _ => exact .none

/-- The contents of two envelopes are related, or the two wholes. -/
theorem unwrapped (hR : Congruent R) (hab : R a b) :
    R (unwrapExpected a) ((Compare.unwrap? b).getD b) := by
  have hunwrap := hR.unwrap? hab
  rw [unwrapExpected]
  cases ha : Compare.unwrap? a with
  | none =>
    rw [ha] at hunwrap
    cases hb : Compare.unwrap? b with
    | none => exact hab
    | some other => rw [hb] at hunwrap; cases hunwrap
  | some inner =>
    rw [ha] at hunwrap
    cases hb : Compare.unwrap? b with
    | none => rw [hb] at hunwrap; cases hunwrap
    | some other =>
      rw [hb] at hunwrap
      cases hunwrap with
      | some hinner => exact hinner

theorem compareUnwrapped_eq_nil (hR : Congruent R) (hab : R a b) (root : String)
    {allowUndefined : Bool}
    (hextras : ∀ {fields others}, R (.map fields) (.map others) →
      allowUndefined = true ∨ extras fields others = []) :
    compareUnwrapped a b root allowUndefined = [] := by
  have hagree := hR.valuesAgree a b hab root false
  rw [compareUnwrapped.eq_def]
  split
  · rw [compareFields_eq_nil "" hagree, List.nil_append]
    split
    · rfl
    · exact (hextras hab).resolve_left ‹_›
  · rw [if_pos hagree]

/-- Related configurations have no difference, if those that are maps have the same keys or
undefined fields are allowed. -/
theorem compareConfigs_eq_nil (hR : Congruent R) (hab : R a b) {allowUndefined : Bool}
    (hextras : ∀ {fields others}, R (.map fields) (.map others) →
      allowUndefined = true ∨ extras fields others = []) :
    compareConfigs a b none allowUndefined = [] := by
  have hempty := hR.isEmpty_eq hab
  rw [compareConfigs.eq_def, ← hempty]
  cases he : a.isEmpty with
  | true => rfl
  | false =>
    rw [if_neg (by decide), if_neg (by decide)]
    have hunwrap : unwrapActual b none = (Compare.unwrap? b).getD b := by
      rw [unwrapActual, Option.bind_none, Option.or_none]
    rw [hunwrap]
    exact hR.compareUnwrapped_eq_nil (hR.unwrapped hab) _ hextras

end Congruent

end RadioAdmin.Compare
