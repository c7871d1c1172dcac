import RadioAdmin.Proofs.Compare.Entry
import RadioAdmin.Proofs.Compare.Keys
import RadioAdmin.Proofs.Encoding.Base64

/-!
# Spellings of a key

Raw bytes, base64 text and a list of numbers all tell the bytes of a key, and two spellings in a key
field agree exactly when the bytes are the same. The comparison of maps looks at the shape of a
field before its name: there a list of numbers meets no other spelling, while every other spelling
meets a list.
-/
namespace RadioAdmin.KeyMaterial

/-- The ways of writing a key that lose nothing. -/
inductive Spelling where
  | bytes
  | base64
  | numbers
  deriving DecidableEq, Repr

/-- A byte as one number of a list. -/
def number (octet : UInt8) : Value := .int (Int64.ofNat octet.toNat)

def Spelling.value (octets : List UInt8) : Spelling → Value
  | .bytes => .bytes octets
  | .base64 => .text (Base64.encode octets)
  | .numbers => .list (octets.map number)

theorem toInt_ofNat_toNat (octet : UInt8) : (Int64.ofNat octet.toNat).toInt = octet.toNat := by
  have hlt : octet.toNat < 2 ^ 8 := octet.toNat_lt
  exact Int64.toInt_ofNat_of_lt (by omega)

theorem byte?_number (octet : UInt8) : byte? (number octet) = some octet := by
  have hlt : octet.toNat < 2 ^ 8 := octet.toNat_lt
  have hbyte : 0 ≤ (octet.toNat : Int) ∧ (octet.toNat : Int) < 256 := by omega
  rw [number, byte?, toInt_ofNat_toNat, if_pos hbyte, Int.toNat_natCast, UInt8.ofNat_toNat]

theorem mapM_byte?_numbers (octets : List UInt8) :
    (octets.map number).mapM byte? = some octets := by
  induction octets with
  | nil => rfl
  | cons octet rest ih => rw [List.map_cons, List.mapM_cons, byte?_number, ih]; rfl

theorem ofList_numbers {octets : List UInt8} (hset : octets ≠ []) :
    ofList (octets.map number) = some octets := by
  rw [ofList, if_neg (by simpa using hset), mapM_byte?_numbers]

/-- Base64 goes before all other spellings. -/
theorem normalize?_base64 (octets : List UInt8) :
    normalize? (.text (Base64.encode octets)) = normalize? (.bytes octets) := by
  rw [normalize?, normalize?, Base64.isEmpty_encode, ofText, Base64.decode_encode]
  cases octets <;> rfl

/-- Whether a value writes a byte string in one of these ways: as itself, as its base64 text, or as
the list of its bytes as integers. -/
def Encodes (value : Value) (octets : List UInt8) : Prop :=
  match value with
  | .bytes told => told = octets
  | .text string => string = Base64.encode octets
  | .list items => List.Forall₂ (fun item octet => ∃ integer : Int64,
      item = .int integer ∧ integer.toInt = octet.toNat) items octets
  | _ => False

theorem int_eq_number {integer : Int64} {octet : UInt8} (h : integer.toInt = octet.toNat) :
    Value.int integer = number octet := by
  rw [number, Int64.toInt_inj.mp (h.trans (toInt_ofNat_toNat octet).symm)]

theorem Encodes.exists_spelling {value : Value} {octets : List UInt8} (h : Encodes value octets) :
    ∃ spelling : Spelling, value = spelling.value octets := by
  cases value with
  | bytes told => exact ⟨.bytes, congrArg Value.bytes h⟩
  | text string => exact ⟨.base64, congrArg Value.text h⟩
  | list items =>
    refine ⟨.numbers, congrArg Value.list ?_⟩
    have heq : List.Forall₂ (fun item octet => item = number octet) items octets := by
      refine List.Forall₂.imp ?_ h
      rintro item octet ⟨integer, rfl, hinteger⟩
      exact int_eq_number hinteger
    rw [← List.forall₂_eq_eq_eq, List.forall₂_map_right_iff]
    exact heq
  | null | bool _ | int _ | float _ | map _ => exact h.elim

namespace Spelling

variable {octets others : List UInt8} (spelling other : Spelling)

theorem normalize?_value (hset : octets ≠ []) :
    normalize? (spelling.value octets) = some octets := by
  have hbytes : normalize? (.bytes octets) = some octets := if_neg (by simpa using hset)
  cases spelling with
  | bytes => exact hbytes
  | base64 => exact (normalize?_base64 octets).trans hbytes
  | numbers => exact ofList_numbers hset

theorem isEmpty_value (hset : octets ≠ []) : (spelling.value octets).isEmpty = false := by
  have hoctets : octets.isEmpty = false := by simpa using hset
  cases spelling with
  | bytes => exact hoctets
  | base64 => exact (Base64.isEmpty_encode octets).trans hoctets
  | numbers => exact List.isEmpty_map.trans hoctets

theorem isSpelling_value : isSpelling (spelling.value octets) = true := by
  cases spelling <;> rfl

theorem value_ne_map (fields : List (String × Value)) : spelling.value octets ≠ .map fields := by
  cases spelling <;> exact fun h => by cases h

theorem eq_numbers_of_value_eq_list {items : List Value} (h : spelling.value octets = .list items) :
    spelling = .numbers := by
  cases spelling with
  | numbers => rfl
  | _ => cases h

end Spelling

end RadioAdmin.KeyMaterial

namespace RadioAdmin.Compare

open KeyMaterial (fieldNames isKeyField number Spelling)

variable {octets others : List UInt8} {key : String}

/-- Numbers are set, so all of them are compared, as one key. -/
theorem keysOf_present_numbers (hset : octets ≠ []) :
    keysOf (present (octets.map number)) = [octets] := by
  have hpresent : present (octets.map number) = octets.map number := by
    rw [present, List.filter_eq_self]
    intro item hitem
    obtain ⟨octet, -, rfl⟩ := List.mem_map.mp hitem
    rfl
  rw [hpresent, keysOf, KeyMaterial.ofList_numbers hset]

theorem listsAgree_numbers (hkey : isKeyField key = true) (hset : octets ≠ [])
    (hother : others ≠ []) :
    listsAgree (octets.map number) (others.map number) key = true ↔ octets = others := by
  rw [listsAgree_iff_keysOf hkey, keysOf_present_numbers hset, keysOf_present_numbers hother]
  simp only [List.mem_singleton]
  constructor
  · exact fun h => (h octets).mp rfl
  · rintro rfl x
    rfl

/-- Two spellings agree in a key field exactly when they spell the same key. -/
theorem valuesAgree_spellings (x y : Spelling) (hkey : isKeyField key = true) (hset : octets ≠ [])
    (hother : others ≠ []) :
    valuesAgree (x.value octets) (y.value others) key false = true ↔ octets = others := by
  by_cases hlists : x = .numbers ∧ y = .numbers
  · obtain ⟨rfl, rfl⟩ := hlists
    rw [Spelling.value, Spelling.value, valuesAgree_lists_eq key false (by simpa using hset)
      (by simpa using hother)]
    exact listsAgree_numbers hkey hset hother
  · rw [valuesAgree_mixed key false (x.isEmpty_value hset) (y.isEmpty_value hother)
      (fun a _ h => absurd h (x.value_ne_map a))
      (fun _ _ hx hy =>
        hlists ⟨x.eq_numbers_of_value_eq_list hx, y.eq_numbers_of_value_eq_list hy⟩),
      leavesAgree, hkey, Bool.or_true, if_pos (by rw [x.isSpelling_value]; rfl),
      x.normalize?_value hset, y.normalize?_value hother, beq_iff_eq, Option.some_inj]

/-- Two values that write keys agree in a key field exactly when they write the same key, whichever
ways they write it. -/
theorem valuesAgree_encoded_iff (octets others : List UInt8) (x y : Value) (field : String)
    (hset : octets ≠ []) (hother : others ≠ []) (hx : KeyMaterial.Encodes x octets)
    (hy : KeyMaterial.Encodes y others)
    (hfield : ∃ last, last.toLower ∈ fieldNames ∧
      (field = last ∨ ∃ front, field = front ++ "." ++ last)) :
    valuesAgree x y field false = true ↔ octets = others := by
  obtain ⟨spelling, rfl⟩ := hx.exists_spelling
  obtain ⟨other, rfl⟩ := hy.exists_spelling
  exact valuesAgree_spellings spelling other ((KeyMaterial.isKeyField_iff field).mpr hfield) hset
    hother

/-- Two lists of integers with different keys, and the text of one of the keys. -/
theorem valuesAgree_encoded_iff_two_keys :
    let field := "security.PSK"
    KeyMaterial.Encodes (.list [.int 1, .int 255]) [1, 255] ∧
      KeyMaterial.Encodes (.list [.int 255, .int 1]) [255, 1] ∧
      KeyMaterial.Encodes (.text "Af8=") [1, 255] ∧
      valuesAgree (.list [.int 1, .int 255]) (.list [.int 255, .int 1]) field false = false ∧
      valuesAgree (.list [.int 1, .int 255]) (.text "Af8=") field false = true := by
  intro field
  have hfirst : KeyMaterial.Encodes (.list [.int 1, .int 255]) [1, 255] :=
    .cons ⟨1, rfl, by decide⟩ (.cons ⟨255, rfl, by decide⟩ .nil)
  have hsecond : KeyMaterial.Encodes (.list [.int 255, .int 1]) [255, 1] :=
    .cons ⟨255, rfl, by decide⟩ (.cons ⟨1, rfl, by decide⟩ .nil)
  have htext : KeyMaterial.Encodes (.text "Af8=") [1, 255] :=
    show "Af8=" = Base64.encode [1, 255] by rfl
  have hfield : ∃ last, last.toLower ∈ fieldNames ∧
      (field = last ∨ ∃ front, field = front ++ "." ++ last) :=
    ⟨"PSK", by decide +kernel, .inr ⟨"security", rfl⟩⟩
  have hlists := valuesAgree_encoded_iff [1, 255] [255, 1] _ _ field (by decide) (by decide)
    hfirst hsecond hfield
  have hspelt := valuesAgree_encoded_iff [1, 255] [1, 255] _ _ field (by decide) (by decide)
    hfirst htext hfield
  refine ⟨hfirst, hsecond, htext, ?_, hspelt.mpr rfl⟩
  rw [Bool.eq_false_iff, Ne, hlists]
  decide

/-- The record, if any, of one key in two spellings under a key field of two maps. -/
theorem compareFields_spelling (x y : Spelling) (path : String) (hkey : isKeyField key = true)
    (hset : octets ≠ []) :
    compareFields [(key, x.value octets)] [(key, y.value octets)] path =
      if x = .numbers ∧ y ≠ .numbers then
        [.typeMismatch (FieldPath.child path key) (x.value octets) (y.value octets)]
      else [] := by
  have hfound : Fields.get? [(key, y.value octets)] key = some (y.value octets) :=
    Fields.get?_cons_self key (y.value octets) []
  rw [compareFields_cons_entry [] path fun a _ hx => absurd hx (x.value_ne_map a),
    compareFields_nil, List.append_nil, hfound]
  by_cases hx : x = .numbers
  · subst hx
    by_cases hy : y = .numbers
    · subst hy
      have hagree : listsAgree (octets.map number) (octets.map number)
          (FieldPath.child path key) = true := by
        rw [listsAgree_child]
        exact (listsAgree_numbers hkey hset hset).mpr rfl
      rw [if_neg fun h => h.2 rfl, Spelling.value, entryDifference?, compareLists_eq, if_pos hagree]
      rfl
    · rw [if_pos ⟨rfl, hy⟩, entryDifference?_container rfl
        (fun a _ h => absurd h (Spelling.numbers.value_ne_map a))
        (fun _ _ _ h => hy (y.eq_numbers_of_value_eq_list h)),
        Spelling.numbers.isEmpty_value hset]
      rfl
  · have hleaf : isContainer (x.value octets) = false := by
      cases x with
      | numbers => exact absurd rfl hx
      | _ => rfl
    rw [if_neg fun h => hx h.1, entryDifference?_leaf hleaf,
      if_pos ((valuesAgree_spellings x y hkey hset hset).mpr rfl)]
    rfl

/-- Two spellings of one key agree as values of a key field. Under the field in two maps they have
no difference exactly if the expected one is no list of numbers or both are; a list that is expected
is of another shape than every other spelling. -/
theorem compareFields_spellings (octets : List UInt8) (key path : String) (x y : Spelling)
    (hset : octets ≠ [])
    (hkey : ∃ last, last.toLower ∈ fieldNames ∧
      (key = last ∨ ∃ front, key = front ++ "." ++ last)) :
    valuesAgree (x.value octets) (y.value octets) key false = true ∧
    (compareFields [(key, x.value octets)] [(key, y.value octets)] path = [] ↔
      (x = .numbers → y = .numbers)) ∧
    (x = .numbers → y ≠ .numbers →
      compareFields [(key, x.value octets)] [(key, y.value octets)] path =
        [.typeMismatch (FieldPath.child path key) (x.value octets) (y.value octets)]) := by
  have hfield := (KeyMaterial.isKeyField_iff key).mpr hkey
  refine ⟨(valuesAgree_spellings x y hfield hset hset).mpr rfl, ?_, fun hx hy => ?_⟩
  · rw [compareFields_spelling x y path hfield hset]
    by_cases h : x = .numbers ∧ y ≠ .numbers
    · rw [if_pos h]
      exact iff_of_false (List.cons_ne_nil _ _) fun hxy => h.2 (hxy h.1)
    · rw [if_neg h]
      exact iff_of_true rfl fun hx => Decidable.not_not.mp fun hy => h ⟨hx, hy⟩
  · rw [compareFields_spelling x y path hfield hset, if_pos ⟨hx, hy⟩]

/-- The text of a key is met by the numbers of its bytes. -/
theorem compareFields_spellings_text :
    compareFields [("Psk", .text "AQL/")] [("Psk", .list [.int 1, .int 2, .int 255])] "channel" =
      [] := by
  have hspelled := compareFields_spellings [1, 2, 255] "Psk" "channel" .base64 .numbers
    (by decide) ⟨"Psk", by decide +kernel, .inl rfl⟩
  exact hspelled.2.1.mpr fun _ => rfl

/-- The numbers of a key are met by its bytes as a value of a key field, but not under that field
in two maps. -/
theorem compareFields_numbers_for_bytes :
    valuesAgree (.list [.int 1, .int 2]) (.bytes [1, 2]) "psk" false = true ∧
    compareFields [("psk", .list [.int 1, .int 2])] [("psk", .bytes [1, 2])] "" ≠ [] ∧
    compareFields [("psk", .bytes [1, 2])] [("psk", .list [.int 1, .int 2])] "" = [] := by
  have hkey : isKeyField "psk" = true := by decide +kernel
  have hset : ([1, 2] : List UInt8) ≠ [] := by decide
  have hforth := compareFields_spelling .numbers .bytes "" hkey hset
  have hback := compareFields_spelling .bytes .numbers "" hkey hset
  rw [if_pos (by decide)] at hforth
  rw [if_neg (by decide)] at hback
  exact ⟨(valuesAgree_spellings .numbers .bytes hkey hset hset).mpr rfl,
    hforth ▸ List.cons_ne_nil _ _, hback⟩

end RadioAdmin.Compare
