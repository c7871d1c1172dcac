import RadioAdmin.Proofs.Compare.Agreement
import RadioAdmin.Proofs.Encoding.Base64
import RadioAdmin.Proofs.FieldPath

/-!
# Keys in hex

A text is read as base64 before it is read as hex, and every hexadecimal digit is in the
base64 alphabet. So a key in hex is read back exactly when its text is no base64, which its
length alone decides: two digits a byte make a multiple of four when the bytes are even in
number.
-/
namespace RadioAdmin.KeyMaterial

theorem isDigit_hex (letters : Hex.LetterCase) (value : Nat) (h : value < 16) :
    Base64.IsDigit (Hex.digit letters value) := by
  have hall : ∀ v : Fin 16, (Base64.value? (Hex.digit letters v.val)).isSome := by
    cases letters <;> decide
  exact hall ⟨value, h⟩

theorem length_encodeChars (letters : Hex.LetterCase) (octets : List UInt8) :
    (Hex.encodeChars letters octets).length = 2 * octets.length := by
  induction octets with
  | nil => rfl
  | cons octet rest ih => simp only [Hex.encodeChars, List.length_cons, ih]; omega

theorem isDigit_of_mem_encodeChars (letters : Hex.LetterCase) (octets : List UInt8) :
    ∀ c ∈ Hex.encodeChars letters octets, Base64.IsDigit c := by
  induction octets with
  | nil => simp [Hex.encodeChars]
  | cons octet rest ih =>
    have hb : octet.toNat < 256 := octet.toNat_lt
    intro c hc
    simp only [Hex.encodeChars, List.mem_cons] at hc
    rcases hc with rfl | rfl | hc
    · exact isDigit_hex letters _ (by omega)
    · exact isDigit_hex letters _ (by omega)
    · exact ih c hc

/-- The hex of an odd number of bytes is no base64, and is read as hex. -/
theorem ofText_hex_of_odd (letters : Hex.LetterCase) (octets : List UInt8)
    (hodd : octets.length % 2 = 1) : ofText (Hex.encode letters octets) = octets := by
  have hbase : Base64.decode (Hex.encode letters octets) = none := by
    rw [Option.eq_none_iff_forall_ne_some]
    intro read hread
    have hl := Base64.length_of_decodeChars hread
    rw [Hex.encode, String.toList_ofList, length_encodeChars] at hl
    omega
  cases octets with
  | nil => simp at hodd
  | cons octet rest => rw [ofText, hbase, Hex.decode_encode]

/-- The hex of an even number of bytes is base64, and is read as three bytes for each two. -/
theorem ofText_hex_of_even (letters : Hex.LetterCase) (octets : List UInt8)
    (hset : octets ≠ []) (heven : octets.length % 2 = 0) :
    ∃ read, Base64.decode (Hex.encode letters octets) = some read ∧
      2 * read.length = 3 * octets.length ∧ ofText (Hex.encode letters octets) = read := by
  obtain ⟨read, hread, hl⟩ := Base64.decodeChars_of_isDigit (octets.length / 2)
    (Hex.encodeChars letters octets) (by rw [length_encodeChars]; omega)
    (isDigit_of_mem_encodeChars letters octets)
  have hdecode : Base64.decode (Hex.encode letters octets) = some read := by
    rw [Base64.decode, Hex.encode, String.toList_ofList, hread]
  have hpos := List.length_pos_iff.mpr hset
  refine ⟨read, hdecode, by omega, ?_⟩
  cases read with
  | nil => simp only [List.length_nil] at hl; omega
  | cons first rest => rw [ofText, hdecode]

theorem isEmpty_hex (letters : Hex.LetterCase) {octets : List UInt8} (h : octets ≠ []) :
    (Hex.encode letters octets).isEmpty = false := by
  have hl := length_encodeChars letters octets
  have hpos := List.length_pos_iff.mpr h
  rw [Bool.eq_false_iff, Ne, String.isEmpty_iff, ← String.toList_inj, Hex.encode,
    String.toList_ofList]
  intro hnil
  rw [hnil] at hl
  simp only [String.toList_empty, List.length_nil] at hl
  omega

theorem normalize?_hex (letters : Hex.LetterCase) {octets : List UInt8} (h : octets ≠ []) :
    normalize? (.text (Hex.encode letters octets)) = some (ofText (Hex.encode letters octets)) := by
  rw [normalize?, isEmpty_hex letters h, if_neg (by decide)]

/-- In a key field a text in hex agrees with bytes exactly when it is read as them. -/
theorem valuesAgree_hex (letters : Hex.LetterCase) {octets : List UInt8} {field : String}
    (hset : octets ≠ []) (hfield : isKeyField field = true) :
    Compare.valuesAgree (.text (Hex.encode letters octets)) (.bytes octets) field false =
        (ofText (Hex.encode letters octets) == octets) ∧
      Compare.valuesAgree (.bytes octets) (.text (Hex.encode letters octets)) field false =
        (octets == ofText (Hex.encode letters octets)) := by
  have htext : (Value.text (Hex.encode letters octets)).isEmpty = false :=
    isEmpty_hex letters hset
  have hbytes : (Value.bytes octets).isEmpty = false := by simpa [Value.isEmpty] using hset
  have hraw : normalize? (.bytes octets) = some octets := if_neg (by simpa using hset)
  constructor
  · rw [Compare.valuesAgree_spelling false hfield htext hbytes rfl (Or.inl rfl),
      normalize?_hex letters hset, hraw]
    rfl
  · rw [Compare.valuesAgree_spelling false hfield hbytes htext rfl (Or.inl rfl),
      normalize?_hex letters hset, hraw]
    rfl

/-- Base64 goes before hex. The hex of an odd number of bytes, in either case, is read back
as the bytes and agrees with them in every key field; the hex of an even number is base64
for half as many bytes again, and agrees with its own bytes in no key field. -/
theorem normalize_hex (letters : Hex.LetterCase) (octets : List UInt8) (field : String)
    (hset : octets ≠ [])
    (hfield : ∃ last, last.toLower ∈ fieldNames ∧
      (field = last ∨ ∃ path, field = path ++ "." ++ last)) :
    (octets.length % 2 = 1 →
      normalize? (.text (Hex.encode letters octets)) = some octets ∧
      Compare.valuesAgree (.text (Hex.encode letters octets)) (.bytes octets) field false = true ∧
      Compare.valuesAgree (.bytes octets) (.text (Hex.encode letters octets)) field false = true) ∧
    (octets.length % 2 = 0 →
      (∃ read, Base64.decode (Hex.encode letters octets) = some read ∧
        2 * read.length = 3 * octets.length ∧
        normalize? (.text (Hex.encode letters octets)) = some read) ∧
      Compare.valuesAgree (.text (Hex.encode letters octets)) (.bytes octets) field false = false ∧
      Compare.valuesAgree (.bytes octets) (.text (Hex.encode letters octets)) field false =
        false) := by
  have hagree := valuesAgree_hex letters hset ((isKeyField_iff field).mpr hfield)
  rw [hagree.1, hagree.2, normalize?_hex letters hset]
  constructor
  · intro hodd
    rw [ofText_hex_of_odd letters octets hodd]
    exact ⟨rfl, beq_self_eq_true _, beq_self_eq_true _⟩
  · intro heven
    obtain ⟨read, hdecode, hl, hof⟩ := ofText_hex_of_even letters octets hset heven
    have hpos := List.length_pos_iff.mpr hset
    have hne : read ≠ octets := by
      intro he
      rw [he] at hl
      omega
    rw [hof]
    exact ⟨⟨read, hdecode, hl, rfl⟩, by simpa using hne, by simpa using hne.symm⟩

theorem normalize_hex_three_bytes :
    ([0xab, 0xcd, 0xef] : List UInt8) ≠ [] ∧
    ("Admin_Key".toLower ∈ fieldNames ∧ "security.Admin_Key" = "security" ++ "." ++ "Admin_Key") ∧
    normalize? (.text "ABCDEF") = some [0xab, 0xcd, 0xef] ∧
    Compare.valuesAgree (.text "ABCDEF") (.bytes [0xab, 0xcd, 0xef]) "security.Admin_Key" false =
      true := by
  have hname : "Admin_Key".toLower ∈ fieldNames := by decide +kernel
  have hodd := (normalize_hex .upper [0xab, 0xcd, 0xef] "security.Admin_Key" (by decide)
    ⟨"Admin_Key", hname, Or.inr ⟨"security", rfl⟩⟩).1 rfl
  exact ⟨by decide, ⟨hname, rfl⟩, hodd.1, hodd.2.1⟩

/-- A key of two bytes in hex is four alphabet characters, and is read as three bytes. -/
theorem normalize_hex_two_bytes :
    Hex.encode .lower [0x01, 0x02] = "0102" ∧
    normalize? (.text "0102") = some [0xd3, 0x5d, 0x36] ∧
    normalize? (.text "0102") ≠ some [0x01, 0x02] ∧
    Compare.valuesAgree (.text "0102") (.bytes [0x01, 0x02]) "psk" false = false := by
  have hread : normalize? (.text "0102") = some [0xd3, 0x5d, 0x36] := by decide +kernel
  refine ⟨rfl, hread, by rw [hread]; decide, ?_⟩
  rw [Compare.valuesAgree_spelling false (by decide +kernel) rfl rfl rfl (Or.inl rfl), hread]
  rfl

end RadioAdmin.KeyMaterial
