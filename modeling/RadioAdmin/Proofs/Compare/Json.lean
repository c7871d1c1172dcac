import RadioAdmin.Proofs.Compare.Same
import RadioAdmin.Proofs.KeyMaterial.Spelling
import RadioAdmin.Proofs.Value.Json

/-!
# Comparison of configurations with the same JSON

A byte string and its base64 text are the same JSON, and they read alike wherever a comparison
meets them: as keys they have the same bytes, and elsewhere they have the same text. So what is
written as JSON and read back is no change, in either direction.
-/
namespace RadioAdmin

open Value (AllFinite)

namespace Compare

/-- Finite values that are written as the same JSON. -/
structure SameJson (a b : Value) : Prop where
  toJson : a.toJson = b.toJson
  finite : AllFinite a
  otherFinite : AllFinite b
  otherWellFormed : b.WellFormed

theorem readAlike_bytes (octets : List UInt8) :
    ReadAlike (.bytes octets) (.text (Base64.encode octets)) where
  leaf := rfl
  isEmpty := (Base64.isEmpty_encode octets).symm
  byte := rfl
  key := (KeyMaterial.normalize?_base64 octets).symm
  text := by
    intro s t hs
    cases hs
  coerced := by
    have hdisplay : (Value.bytes octets).display =
        (Value.text (Base64.encode octets)).display := rfl
    exact beq_of_eq hdisplay

theorem readAlike_text (octets : List UInt8) :
    ReadAlike (.text (Base64.encode octets)) (.bytes octets) where
  leaf := rfl
  isEmpty := Base64.isEmpty_encode octets
  byte := rfl
  key := KeyMaterial.normalize?_base64 octets
  text := by
    intro s t _ ht
    cases ht
  coerced := by
    have hdisplay : (Value.text (Base64.encode octets)).display =
        (Value.bytes octets).display := rfl
    exact beq_of_eq hdisplay

theorem SameJson.readAlike {a b : Value} (h : SameJson a b) (hleaf : isContainer a = false) :
    ReadAlike a b := by
  have hlists : ∀ items, a ≠ .list items := by
    rintro items rfl
    cases hleaf
  have hmaps : ∀ fields, a ≠ .map fields := by
    rintro fields rfl
    cases hleaf
  rcases Value.leaf_cases_of_toJson h.toJson h.finite h.otherFinite hlists hmaps with
    rfl | ⟨octets, rfl, rfl⟩ | ⟨octets, rfl, rfl⟩
  · exact readAlike_self h.finite hleaf
  · exact readAlike_bytes octets
  · exact readAlike_text octets

/-- Members of two related lists are related in step. -/
theorem forall₂_mem {α β : Type} {R : α → β → Prop} {as : List α} {bs : List β}
    (h : List.Forall₂ R as bs) : List.Forall₂ (fun a b => a ∈ as ∧ b ∈ bs ∧ R a b) as bs := by
  rw [List.forall₂_iff_zip] at h ⊢
  refine ⟨h.1, fun {a b} hab => ?_⟩
  have hmem := List.of_mem_zip hab
  exact ⟨hmem.1, hmem.2, h.2 hab⟩

theorem exists_of_forall₂ {α β : Type} {R : α → β → Prop} {as : List α} {bs : List β}
    (h : List.Forall₂ R as bs) {a : α} (ha : a ∈ as) : ∃ b ∈ bs, R a b := by
  induction h with
  | nil => cases ha
  | @cons x y xs ys hxy _ ih =>
    rcases List.mem_cons.mp ha with rfl | ha
    · exact ⟨y, List.mem_cons_self, hxy⟩
    · obtain ⟨b, hb, hab⟩ := ih ha
      exact ⟨b, List.mem_cons_of_mem y hb, hab⟩

theorem congruent_sameJson : Congruent SameJson where
  leaf := SameJson.readAlike
  list := by
    intro items b h
    obtain ⟨others, rfl, hitems⟩ := Value.exists_list_of_toJson h.toJson
    have hfinite := (Value.allFiniteItems_iff items).mp h.finite
    have hother := (Value.allFiniteItems_iff others).mp h.otherFinite
    have hw := (Value.wellFormedItems_iff others).mp h.otherWellFormed
    refine ⟨others, rfl, (forall₂_mem hitems).imp ?_⟩
    rintro x y ⟨hx, hy, hxy⟩
    exact ⟨hxy, hfinite x hx, hother y hy, hw y hy⟩
  map := by
    intro fields b h
    obtain ⟨others, rfl, hfields⟩ := Value.exists_map_of_toJson h.toJson
    have hfinite := (Value.allFiniteFields_iff fields).mp h.finite
    have hother := (Value.allFiniteFields_iff others).mp h.otherFinite
    obtain ⟨hdistinct, hw⟩ := h.otherWellFormed
    rw [Value.wellFormedFields_iff] at hw
    refine ⟨others, rfl, hfields.length_eq, fun entry hentry => ?_⟩
    obtain ⟨other, hmem, hkey, hjson⟩ := exists_of_forall₂ hfields hentry
    refine ⟨other.2, ?_, hjson, hfinite entry hentry, hother other hmem, hw other hmem⟩
    rw [hkey]
    exact Fields.get?_of_mem hdistinct hmem

/-- Neither of two maps that are written alike has a key of its own. -/
theorem SameJson.extras_eq_nil {fields others : List (String × Value)}
    (h : SameJson (.map fields) (.map others)) : extras fields others = [] := by
  obtain ⟨entries, hentries, hfields⟩ := Value.exists_map_of_toJson h.toJson
  obtain rfl := Value.map.inj hentries
  have hnames : Fields.names fields = Fields.names others := by
    rw [Fields.names, Fields.names, ← List.forall₂_eq_eq_eq, List.forall₂_map_left_iff,
      List.forall₂_map_right_iff]
    exact hfields.imp fun _ _ hxy => hxy.1
  exact extras_eq_nil_of_subset fun name hname => hnames ▸ hname

/-- Configurations that are written as the same JSON have no difference, whether or not undefined
fields are allowed. -/
theorem SameJson.compareConfigs_eq_nil {a b : Value} (h : SameJson a b) (allowUndefined : Bool) :
    compareConfigs a b none allowUndefined = [] :=
  congruent_sameJson.compareConfigs_eq_nil h fun hmaps => Or.inr hmaps.extras_eq_nil

/-- A configuration that is written as JSON and read back does not look changed, whichever of the
two is the expected one. -/
theorem compareConfigs_reread (value : Value) (hw : value.WellFormed) (hfinite : AllFinite value)
    (allowUndefined : Bool) :
    compareConfigs value (Value.ofJson value.toJson) none allowUndefined = [] ∧
      compareConfigs (Value.ofJson value.toJson) value none allowUndefined = [] := by
  have hjson := Value.toJson_ofJson_toJson value
  have hother := Value.allFinite_ofJson_toJson value
  have hforth : SameJson value (Value.ofJson value.toJson) :=
    ⟨hjson.symm, hfinite, hother, Value.wellFormed_ofJson_toJson hw⟩
  have hback : SameJson (Value.ofJson value.toJson) value := ⟨hjson, hother, hfinite, hw⟩
  exact ⟨hforth.compareConfigs_eq_nil allowUndefined, hback.compareConfigs_eq_nil allowUndefined⟩

/-- Bytes that come back as text under a key field, in a list of keys, in an ordinary field and in
a list of more than texts. -/
theorem compareConfigs_reread_bytes :
    let value : Value := .map [
      ("security", .map [("public_key", .bytes [1, 2, 3]),
        ("admin_key", .list [.bytes [], .bytes [4, 5]])]),
      ("owner", .bytes [9]), ("tags", .list [.bytes [6], .text "a"]), ("gain", .float 0.5)]
    let reread : Value := .map [
      ("security", .map [("public_key", .text "AQID"),
        ("admin_key", .list [.text "", .text "BAU="])]),
      ("owner", .text "CQ=="), ("tags", .list [.text "Bg==", .text "a"]), ("gain", .float 0.5)]
    value.WellFormed ∧ AllFinite value ∧
      compareConfigs value reread none false = [] ∧
      compareConfigs reread value none false = [] := by
  intro value reread
  have hw : value.WellFormed := by
    simp [value, Value.WellFormed, Value.WellFormedFields, Value.WellFormedItems, Fields.Distinct,
      Fields.names]
  have hgain : (0.5 : Float).isFinite = true := by decide +kernel
  have hfinite : AllFinite value := by
    simp [value, AllFinite, Value.AllFiniteFields, Value.AllFiniteItems, hgain]
  have hreread : Value.ofJson value.toJson = reread := by
    simp only [value, Value.toJson, Value.fieldsToJson, Value.itemsToJson, hgain, if_true]
    rfl
  have hsame := compareConfigs_reread value hw hfinite false
  rw [hreread] at hsame
  exact ⟨hw, hfinite, hsame.1, hsame.2⟩

end Compare

end RadioAdmin
