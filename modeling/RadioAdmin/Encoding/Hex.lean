/-!
# Hexadecimal text

Two digits a byte, high half first. Writing chooses the case of the letters; reading
accepts both, also mixed.
-/
namespace RadioAdmin.Hex

/-- The case in which the digits above nine are written. -/
inductive LetterCase where
  | lower
  | upper
  deriving DecidableEq, Repr

def digits : LetterCase → List Char
  | .lower => "0123456789abcdef".toList
  | .upper => "0123456789ABCDEF".toList

/-- The digit of a value below sixteen. -/
def digit (letters : LetterCase) (value : Nat) : Char := (digits letters).getD value '0'

/-- The value of a digit of either case. -/
def value? (c : Char) : Option Nat :=
  if '0' ≤ c ∧ c ≤ '9' then some (c.toNat - '0'.toNat)
  else if 'a' ≤ c ∧ c ≤ 'f' then some (c.toNat - 'a'.toNat + 10)
  else if 'A' ≤ c ∧ c ≤ 'F' then some (c.toNat - 'A'.toNat + 10)
  else none

def encodeChars (letters : LetterCase) : List UInt8 → List Char
  | [] => []
  | byte :: rest =>
    digit letters (byte.toNat / 16) :: digit letters (byte.toNat % 16) :: encodeChars letters rest

def encode (letters : LetterCase) (bytes : List UInt8) : String :=
  String.ofList (encodeChars letters bytes)

/-- Refuses an odd number of digits and any other character. -/
def decodeChars : List Char → Option (List UInt8)
  | [] => some []
  | [_] => none
  | high :: low :: rest => do
    let h ← value? high
    let l ← value? low
    let bytes ← decodeChars rest
    return UInt8.ofNat (16 * h + l) :: bytes

def decode (text : String) : Option (List UInt8) := decodeChars text.toList

/-- A number below 16 ^ width as exactly that many lowercase digits. -/
def padded : Nat → Nat → List Char
  | 0, _ => []
  | width + 1, n => padded width (n / 16) ++ [digit .lower (n % 16)]

theorem length_padded (width n : Nat) : (padded width n).length = width := by
  induction width generalizing n with
  | zero => rfl
  | succ width ih => simp [padded, ih]

theorem value?_digit (letters : LetterCase) (value : Nat) (h : value < 16) :
    value? (digit letters value) = some value := by
  have all : ∀ v : Fin 16, value? (digit letters v.val) = some v.val := by
    cases letters <;> decide
  exact all ⟨value, h⟩

/-- Reading undoes writing in either case. -/
theorem decodeChars_encodeChars (letters : LetterCase) (bytes : List UInt8) :
    decodeChars (encodeChars letters bytes) = some bytes := by
  induction bytes with
  | nil => rfl
  | cons byte rest ih =>
    have hb : byte.toNat < 256 := byte.toNat_lt
    have hh : byte.toNat / 16 < 16 := by omega
    have hl : byte.toNat % 16 < 16 := by omega
    have hv : 16 * (byte.toNat / 16) + byte.toNat % 16 = byte.toNat := by omega
    simp only [encodeChars, decodeChars, value?_digit letters _ hh, value?_digit letters _ hl, ih,
      Option.bind_eq_bind, Option.bind_some, hv, UInt8.ofNat_toNat]
    rfl

theorem decode_encode (letters : LetterCase) (bytes : List UInt8) :
    decode (encode letters bytes) = some bytes := by
  simp [decode, encode, decodeChars_encodeChars]

end RadioAdmin.Hex
