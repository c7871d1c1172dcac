import Mathlib.Data.List.TakeWhile
import RadioAdmin.Json.Printer
import RadioAdmin.Json.Reader

/-!
# Numbers that are written and read

An integer is written with a minus and its usual digits, and is read as the same integer as long as
it fits a word. A double is written with characters of numbers only, whatever its digits are.
-/
namespace RadioAdmin

open RawJson (isNumberChar number?)

/-- A text that the reader takes for one number up to its end. -/
structure NumberText (text : List Char) : Prop where
  chars : ∀ c ∈ text, isNumberChar c = true
  first : ∃ c rest, text = c :: rest ∧ (c.isDigit || c = '-') = true

theorem isNumberChar_of_isDigit {c : Char} (h : c.isDigit = true) : isNumberChar c = true := by
  simp [isNumberChar, h]

theorem isNumberChar_of_all {text : List Char} (h : text.all isNumberChar = true) :
    ∀ c ∈ text, isNumberChar c = true := List.all_eq_true.mp h

theorem NumberText.append {front back : List Char} (hfront : NumberText front)
    (hback : ∀ c ∈ back, isNumberChar c = true) : NumberText (front ++ back) where
  chars := List.forall_mem_append.mpr ⟨hfront.chars, hback⟩
  first := by
    obtain ⟨first, rest, rfl, hfirst⟩ := hfront.first
    exact ⟨first, rest ++ back, rfl, hfirst⟩

/-- A minus may stand in front of a number. -/
theorem NumberText.cons_minus {text : List Char} (h : NumberText text) :
    NumberText ('-' :: text) where
  chars := List.forall_mem_cons.mpr ⟨by decide, h.chars⟩
  first := ⟨'-', text, rfl, by decide⟩

theorem numberText_of_isDigit {text : List Char} (hne : text ≠ [])
    (h : ∀ c ∈ text, c.isDigit = true) : NumberText text where
  chars := fun c hc => isNumberChar_of_isDigit (h c hc)
  first := by
    cases text with
    | nil => exact absurd rfl hne
    | cons first rest => exact ⟨first, rest, rfl, by rw [h first List.mem_cons_self]; rfl⟩

/-- The characters of an integer. -/
def integerChars (negative : Bool) (size : Nat) : List Char :=
  (if negative then ['-'] else []) ++ Nat.toDigits 10 size

theorem isDigit_toDigits {n : Nat} {c : Char} (h : c ∈ Nat.toDigits 10 n) : c.isDigit = true :=
  Nat.isDigit_of_mem_toDigits (by decide) (by decide) h

theorem exists_toDigits (n : Nat) :
    ∃ first rest, Nat.toDigits 10 n = first :: rest ∧ first.isDigit = true := by
  cases h : Nat.toDigits 10 n with
  | nil => exact absurd h Nat.toDigits_ne_nil
  | cons first rest =>
    have hmem : first ∈ Nat.toDigits 10 n := by rw [h]; exact List.mem_cons_self
    exact ⟨first, rest, rfl, isDigit_toDigits hmem⟩

theorem toList_integer (n : Int) :
    (toString n).toList = integerChars (decide (n < 0)) n.natAbs := by
  rw [Int.toString_eq_repr, Int.repr_eq_if, integerChars]
  by_cases h : 0 ≤ n
  · have hsize : n.toNat = n.natAbs := by omega
    rw [if_pos h, Nat.toList_repr, hsize, if_neg (by simpa using h)]
    rfl
  · have hsize : (-n).toNat = n.natAbs := by omega
    rw [if_neg h, String.toList_append, Nat.toList_repr, hsize, if_pos (by simpa using h)]
    rfl

theorem numberText_integer (negative : Bool) (size : Nat) :
    NumberText (integerChars negative size) := by
  have hsize : NumberText (Nat.toDigits 10 size) :=
    numberText_of_isDigit Nat.toDigits_ne_nil fun c hc => isDigit_toDigits hc
  cases negative with
  | true => exact hsize.cons_minus
  | false => exact hsize

/-- No digit stands behind a leading zero. -/
theorem head?_toDigits_ne {n : Nat} (h : 0 < n) : (Nat.toDigits 10 n).head? ≠ some '0' := by
  induction n using Nat.strongRecOn with
  | ind n ih =>
    by_cases hn : n < 10
    · have hdigits : ∀ k : Fin 10, 0 < k.val → Nat.digitChar k.val ≠ '0' := by decide
      rw [Nat.toDigits_of_lt_base hn]
      simpa using hdigits ⟨n, hn⟩ h
    · have hrest : (Nat.toDigits 10 (n / 10)).head? ≠ some '0' := ih (n / 10) (by omega) (by omega)
      obtain ⟨first, rest, htext, -⟩ := exists_toDigits (n / 10)
      rw [htext] at hrest
      rw [Nat.toDigits_of_base_le (by decide) (by omega), htext]
      exact hrest

/-- An integer in the form in which its text is read. -/
def WrittenNumber.ofInteger (negative : Bool) (size : Nat) : WrittenNumber where
  negative := negative
  whole := (Nat.toDigits 10 size).map fun c => c.toNat - '0'.toNat
  fraction := none
  exponent := none

/-- All that the reader asks of a number holds of the digits of an integer: there is one, none
stands behind a leading zero, and nothing follows them. -/
theorem number?_integer (negative : Bool) (size : Nat) :
    number? (integerChars negative size) = some (WrittenNumber.ofInteger negative size) := by
  have hdigits : ∀ c ∈ Nat.toDigits 10 size, c.isDigit = true := fun c hc => isDigit_toDigits hc
  have hwhole : (Nat.toDigits 10 size).takeWhile Char.isDigit = Nat.toDigits 10 size :=
    List.takeWhile_eq_self_iff.mpr hdigits
  have hafter : (Nat.toDigits 10 size).dropWhile Char.isDigit = [] :=
    List.dropWhile_eq_nil_iff.mpr hdigits
  have hempty : (Nat.toDigits 10 size).isEmpty = false := by
    rw [List.isEmpty_eq_false_iff]
    exact Nat.toDigits_ne_nil
  have hzero : ((Nat.toDigits 10 size).head? == some '0' &&
      decide (1 < (Nat.toDigits 10 size).length)) = false := by
    by_cases h : 0 < size
    · rw [beq_eq_false_iff_ne.mpr (head?_toDigits_ne h), Bool.false_and]
    · obtain rfl : size = 0 := by omega
      decide
  cases negative with
  | true =>
    simp only [integerChars, if_true, List.cons_append, List.nil_append, number?, hwhole, hafter,
      hempty, hzero]
    rfl
  | false =>
    obtain ⟨first, rest, htext, hfirst⟩ := exists_toDigits size
    have hsign : first ≠ '-' := by
      rintro rfl
      cases hfirst
    rw [htext] at hwhole hafter hempty hzero
    have hbody : integerChars false size = first :: rest := htext
    rw [hbody, WrittenNumber.ofInteger, htext, number?]
    · simp only [hwhole, hafter, hempty, hzero]
      rfl
    · intro more hmore
      exact hsign (List.cons.inj hmore).1

theorem le_foldl_digits (word : Nat) (digits : List Nat) :
    word ≤ digits.foldl (fun n digit => 10 * n + digit) word := by
  induction digits generalizing word with
  | nil => exact Nat.le_refl word
  | cons digit rest ih =>
    have hrest := ih (10 * word + digit)
    rw [List.foldl_cons]
    omega

/-- Digits are all absorbed when their number fits a word, since it only grows on the way. -/
theorem absorb_eq {word : Nat} {digits : List Nat}
    (h : digits.foldl (fun n digit => 10 * n + digit) word < UInt64.size) :
    WrittenNumber.absorb word digits =
      (digits.foldl (fun n digit => 10 * n + digit) word, []) := by
  induction digits generalizing word with
  | nil => rfl
  | cons digit rest ih =>
    rw [List.foldl_cons] at h ⊢
    have hgrows := le_foldl_digits (10 * word + digit) rest
    have hfits : 10 * word + digit < UInt64.size := by omega
    rw [WrittenNumber.absorb, if_pos hfits, ih h]

theorem absorb_toDigits (negative : Bool) {size : Nat} (h : size < UInt64.size) :
    WrittenNumber.absorb 0 (WrittenNumber.ofInteger negative size).whole = (size, []) := by
  have hvalue : (WrittenNumber.ofInteger negative size).whole.foldl
      (fun n digit => 10 * n + digit) 0 = size := by
    rw [WrittenNumber.ofInteger, List.foldl_map]
    exact Nat.ofDigitChars_ten_toDigits
  rw [absorb_eq (by rw [hvalue]; exact h), hvalue]

/-- An integer of a signed or an unsigned word is read as itself. -/
theorem toJson_ofInteger {n : Int} (hlow : Int64.minValue.toInt ≤ n) (hhigh : n < UInt64.size) :
    (WrittenNumber.ofInteger (decide (n < 0)) n.natAbs).toJson = some (.integer n) := by
  have hleast : 2 * Int64.minValue.toInt = -UInt64.size := rfl
  have hfits : n.natAbs < UInt64.size := by omega
  have hword := absorb_toDigits (decide (n < 0)) hfits
  rw [WrittenNumber.toJson, hword]
  by_cases h : n < 0
  · have hsigned : ¬ (n.natAbs = 0 ∨ UInt64.size < 2 * n.natAbs) := by omega
    have hvalue : -(n.natAbs : Int) = n := by omega
    simp only [WrittenNumber.ofInteger, h, decide_true, Bool.not_true, Bool.false_eq_true, if_false,
      hsigned, hvalue, Option.isSome_none, Bool.or_self]
  · have hvalue : (n.natAbs : Int) = n := by omega
    simp only [WrittenNumber.ofInteger, h, decide_false, Bool.not_false, if_true, hvalue,
      Option.isSome_none, Bool.or_self, Bool.false_eq_true, if_false]

theorem isDigit_zeros {count : Nat} {c : Char} (h : c ∈ List.replicate count '0') :
    c.isDigit = true := by
  rw [List.eq_of_mem_replicate h]
  decide

/-- The layouts of a positive number all begin with a digit. -/
theorem numberText_positive (x : Decimal.Digits) :
    NumberText (Json.numberLayout.positive x).toList := by
  have hdigits : ∀ c ∈ Nat.toDigits 10 x.digits, c.isDigit = true := fun c hc => isDigit_toDigits hc
  have hne : Nat.toDigits 10 x.digits ≠ [] := Nat.toDigits_ne_nil
  rw [Decimal.Layout.positive]
  dsimp only
  generalize Nat.toDigits 10 x.digits = digits at hdigits hne
  have htake (count : Nat) : NumberText (digits.take (count + 1)) := by
    refine numberText_of_isDigit ?_ fun c hc => hdigits c (List.mem_of_mem_take hc)
    simpa using hne
  have hdrop (count : Nat) : ∀ c ∈ digits.drop count, isNumberChar c = true :=
    fun c hc => isNumberChar_of_isDigit (hdigits c (List.mem_of_mem_drop hc))
  split
  -- Positional: zeros behind the digits, a point among them, or zeros in front of them.
  · split
    · rw [String.toList_append, String.toList_ofList]
      refine NumberText.append (numberText_of_isDigit (by simp [hne]) ?_)
        (isNumberChar_of_all rfl)
      exact List.forall_mem_append.mpr ⟨hdigits, fun c hc => isDigit_zeros hc⟩
    · split
      · simp only [String.toList_append, String.toList_ofList]
        exact ((htake _).append (isNumberChar_of_all rfl)).append (hdrop _)
      · simp only [String.toList_append, String.toList_ofList]
        refine NumberText.append ⟨isNumberChar_of_all rfl, '0', ['.'], rfl, rfl⟩ ?_
        refine List.forall_mem_append.mpr ⟨fun c hc => ?_, fun c hc => ?_⟩
        · exact isNumberChar_of_isDigit (isDigit_zeros hc)
        · exact isNumberChar_of_isDigit (hdigits c hc)
  -- With an exponent.
  · simp only [String.toList_append, String.toList_ofList]
    refine (((htake 0).append ?_).append ?_).append ?_
    · split
      · exact fun c hc => by cases hc
      · simp only [String.toList_append, String.toList_ofList]
        exact List.forall_mem_append.mpr ⟨isNumberChar_of_all rfl, hdrop 1⟩
    · split <;> exact isNumberChar_of_all rfl
    · rw [Nat.toString_eq_repr, Nat.toList_repr]
      exact fun c hc => isNumberChar_of_isDigit (isDigit_toDigits hc)

theorem numberText_printFloat {x : Float} (h : x.isFinite = true) :
    NumberText (Json.printFloat x).toList := by
  rw [Json.printFloat, if_pos h, Decimal.Layout.write, String.toList_append]
  have hsize : NumberText (if (Decimal.Dyadic.ofBits x.toBits).significand = 0
      then "0" ++ Json.numberLayout.wholeMark
      else Json.numberLayout.positive
        (Decimal.shortest (Decimal.Dyadic.ofBits x.toBits))).toList := by
    split
    · exact ⟨isNumberChar_of_all rfl, '0', ['.', '0'], rfl, rfl⟩
    · exact numberText_positive _
  split
  · exact hsize.cons_minus
  · exact hsize

end RadioAdmin
