import RadioAdmin.Encoding.Base64

/-!
# Which texts are base64, and which bytes they stand for

Four characters stand for three bytes. A text of alphabet characters alone, without
padding, is base64 exactly when its length is a multiple of four. What has been written as base64
is read back as it was.
-/
namespace RadioAdmin.Base64

/-- A character of the alphabet; padding is none. -/
def IsDigit (c : Char) : Prop := (value? c).isSome

theorem not_isDigit_padding : ¬ IsDigit '=' := by unfold IsDigit; decide

theorem decodeLast_digits {w x y z : Char} {a b c d : Nat} (hw : value? w = some a)
    (hx : value? x = some b) (hy : value? y = some c) (hz : value? z = some d) :
    decodeLast w x y z = some [UInt8.ofNat (a * 4 + b / 16), UInt8.ofNat (b % 16 * 16 + c / 4),
      UInt8.ofNat (c % 4 * 64 + d)] := by
  have hny : y ≠ '=' := fun he => not_isDigit_padding (by rw [IsDigit, ← he, hy]; rfl)
  have hnz : z ≠ '=' := fun he => not_isDigit_padding (by rw [IsDigit, ← he, hz]; rfl)
  simp only [decodeLast, hw, hx, hy, hz, hny, hnz, if_false, Option.bind_eq_bind, Option.bind_some]
  rfl

/-- A full group adds three bytes to what is read from the rest, the last group included. -/
theorem decodeChars_group {w x y z : Char} {a b c d : Nat} (hw : value? w = some a)
    (hx : value? x = some b) (hy : value? y = some c) (hz : value? z = some d)
    (rest : List Char) :
    decodeChars (w :: x :: y :: z :: rest) = (decodeChars rest).map fun octets =>
      UInt8.ofNat (a * 4 + b / 16) :: UInt8.ofNat (b % 16 * 16 + c / 4) ::
        UInt8.ofNat (c % 4 * 64 + d) :: octets := by
  cases rest with
  | nil => exact decodeLast_digits hw hx hy hz
  | cons next rest =>
    simp only [decodeChars, hw, hx, hy, hz, Option.bind_eq_bind, Option.bind_some]
    cases decodeChars (next :: rest) <;> rfl

/-- Groups of four alphabet characters read as groups of three bytes. -/
theorem decodeChars_of_isDigit (n : Nat) (chars : List Char) (hlen : chars.length = 4 * n)
    (hall : ∀ c ∈ chars, IsDigit c) :
    ∃ octets, decodeChars chars = some octets ∧ octets.length = 3 * n := by
  induction n generalizing chars with
  | zero =>
    obtain rfl := List.eq_nil_of_length_eq_zero hlen
    exact ⟨[], rfl, rfl⟩
  | succ n ih =>
    match chars, hlen, hall with
    | w :: x :: y :: z :: rest, hlen, hall =>
      have hrest : rest.length = 4 * n := by simp only [List.length_cons] at hlen; omega
      simp only [List.forall_mem_cons] at hall
      obtain ⟨hw, hx, hy, hz, hall⟩ := hall
      obtain ⟨a, ha⟩ := Option.isSome_iff_exists.mp hw
      obtain ⟨b, hb⟩ := Option.isSome_iff_exists.mp hx
      obtain ⟨c, hc⟩ := Option.isSome_iff_exists.mp hy
      obtain ⟨d, hd⟩ := Option.isSome_iff_exists.mp hz
      obtain ⟨octets, hread, hl⟩ := ih rest hrest hall
      refine ⟨_, by rw [decodeChars_group ha hb hc hd, hread]; rfl, ?_⟩
      simp only [List.length_cons, hl]
      omega

/-- No other length is read, whatever the characters are. -/
theorem length_of_decodeChars {chars : List Char} {octets : List UInt8}
    (h : decodeChars chars = some octets) : chars.length % 4 = 0 := by
  fun_induction decodeChars chars generalizing octets with
  | case1 => rfl
  | case2 => simp
  | case3 w x y z rest hne ih =>
    cases hr : decodeChars rest with
    | none => simp [hr] at h
    | some tail =>
      have hl := ih hr
      simp only [List.length_cons]
      omega
  | case4 => cases h

theorem value?_digit {value : Nat} (h : value < 64) : value? (digit value) = some value := by
  have hall : ∀ v : Fin 64, value? (digit v.val) = some v.val := by decide +kernel
  exact hall ⟨value, h⟩

theorem digit_ne_padding {value : Nat} (h : value < 64) : digit value ≠ '=' := by
  intro he
  have hvalue := value?_digit h
  rw [he] at hvalue
  exact not_isDigit_padding (Option.isSome_of_eq_some hvalue)

/-- Reading undoes writing: the parts that a byte is split into are put together again. -/
theorem decodeChars_encodeChars (octets : List UInt8) :
    decodeChars (encodeChars octets) = some octets := by
  fun_induction encodeChars octets with
  | case1 => rfl
  | case2 a =>
    have ha : a.toNat < 256 := a.toNat_lt
    have hw : value? (digit (a.toNat / 4)) = some (a.toNat / 4) := value?_digit (by omega)
    have hx : value? (digit (a.toNat % 4 * 16)) = some (a.toNat % 4 * 16) :=
      value?_digit (by omega)
    have hunused : a.toNat % 4 * 16 % 16 = 0 := by omega
    have hfirst : a.toNat / 4 * 4 + a.toNat % 4 * 16 / 16 = a.toNat := by omega
    simp only [decodeChars, decodeLast, hw, hx, hunused, hfirst, Option.bind_eq_bind,
      Option.bind_some, if_true, and_self, UInt8.ofNat_toNat]
    rfl
  | case3 a b =>
    have ha : a.toNat < 256 := a.toNat_lt
    have hb : b.toNat < 256 := b.toNat_lt
    have hw : value? (digit (a.toNat / 4)) = some (a.toNat / 4) := value?_digit (by omega)
    have hx : value? (digit (a.toNat % 4 * 16 + b.toNat / 16)) =
        some (a.toNat % 4 * 16 + b.toNat / 16) := value?_digit (by omega)
    have hy : value? (digit (b.toNat % 16 * 4)) = some (b.toNat % 16 * 4) :=
      value?_digit (by omega)
    have hpadding : digit (b.toNat % 16 * 4) ≠ '=' := digit_ne_padding (by omega)
    have hunused : b.toNat % 16 * 4 % 4 = 0 := by omega
    have hfirst : a.toNat / 4 * 4 + (a.toNat % 4 * 16 + b.toNat / 16) / 16 = a.toNat := by omega
    have hsecond : (a.toNat % 4 * 16 + b.toNat / 16) % 16 * 16 + b.toNat % 16 * 4 / 4 =
        b.toNat := by omega
    simp only [decodeChars, decodeLast, hw, hx, hy, hpadding, hunused, hfirst, hsecond,
      Option.bind_eq_bind, Option.bind_some, if_true, if_false, UInt8.ofNat_toNat]
    rfl
  | case4 a b c rest ih =>
    have ha : a.toNat < 256 := a.toNat_lt
    have hb : b.toNat < 256 := b.toNat_lt
    have hc : c.toNat < 256 := c.toNat_lt
    have hfirst : a.toNat / 4 * 4 + (a.toNat % 4 * 16 + b.toNat / 16) / 16 = a.toNat := by omega
    have hsecond : (a.toNat % 4 * 16 + b.toNat / 16) % 16 * 16 +
        (b.toNat % 16 * 4 + c.toNat / 64) / 4 = b.toNat := by omega
    have hthird : (b.toNat % 16 * 4 + c.toNat / 64) % 4 * 64 + c.toNat % 64 = c.toNat := by omega
    rw [decodeChars_group (value?_digit (by omega)) (value?_digit (by omega))
      (value?_digit (by omega)) (value?_digit (by omega)), ih, hfirst, hsecond, hthird,
      UInt8.ofNat_toNat, UInt8.ofNat_toNat, UInt8.ofNat_toNat, Option.map_some]

theorem decode_encode (octets : List UInt8) : decode (encode octets) = some octets := by
  rw [decode, encode, String.toList_ofList, decodeChars_encodeChars]

theorem encode_injective {a b : List UInt8} (h : encode a = encode b) : a = b := by
  have ha := decode_encode a
  rw [h, decode_encode b] at ha
  exact (Option.some.inj ha).symm

/-- The empty byte string alone is written as the empty text. -/
theorem isEmpty_encode (octets : List UInt8) : (encode octets).isEmpty = octets.isEmpty := by
  cases octets with
  | nil => rfl
  | cons octet rest =>
    rw [List.isEmpty_cons, Bool.eq_false_iff, Ne, String.isEmpty_iff]
    intro hempty
    have hdecode := decode_encode (octet :: rest)
    rw [hempty] at hdecode
    cases hdecode

end RadioAdmin.Base64
