import Mathlib.Algebra.Group.Nat.Defs
import RadioAdmin.Encoding.Hex

/-!
# Numbers in hex of a fixed width

A number that fits the width is written with its usual digits, filled up with zeros in front. So
what is written tells the number.
-/
namespace RadioAdmin.Hex

theorem digit_eq_digitChar {value : Nat} (h : value < 16) :
    digit .lower value = Nat.digitChar value := by
  have hall : ∀ v : Fin 16, digit .lower v.val = Nat.digitChar v.val := by decide
  exact hall ⟨value, h⟩

theorem padded_zero (width : Nat) : padded width 0 = List.replicate width '0' := by
  induction width with
  | zero => rfl
  | succ width ih =>
    rw [padded, Nat.zero_div, ih, List.replicate_succ']
    rfl

theorem leftpad_concat {α : Type} (width : Nat) (fill last : α) (digits : List α) :
    List.leftpad (width + 1) fill (digits ++ [last]) =
      List.leftpad width fill digits ++ [last] := by
  rw [List.leftpad, List.leftpad, List.length_append, List.length_singleton,
    Nat.add_sub_add_right, List.append_assoc]

theorem padded_eq_leftpad (width n : Nat) (h : n < 16 ^ (width + 1)) :
    padded (width + 1) n = List.leftpad (width + 1) '0' (Nat.toDigits 16 n) := by
  induction width generalizing n with
  | zero =>
    have hn : n < 16 := by simpa using h
    rw [padded, padded, Nat.toDigits_of_lt_base hn, Nat.mod_eq_of_lt hn, digit_eq_digitChar hn]
    rfl
  | succ width ih =>
    have hlast : digit .lower (n % 16) = Nat.digitChar (n % 16) :=
      digit_eq_digitChar (Nat.mod_lt n (by decide))
    rw [padded, hlast]
    by_cases hn : n < 16
    · rw [Nat.toDigits_of_lt_base hn, Nat.div_eq_of_lt hn, padded_zero, Nat.mod_eq_of_lt hn]
      rfl
    · have hrest : n / 16 < 16 ^ (width + 1) := by
        rw [Nat.pow_succ] at h
        exact Nat.div_lt_of_lt_mul (by rw [Nat.mul_comm]; exact h)
      rw [Nat.toDigits_of_base_le (by decide) (Nat.le_of_not_lt hn), leftpad_concat, ih _ hrest]

/-- What is written in a width tells every number that fits it. -/
theorem padded_injective {width m n : Nat} (hm : m < 16 ^ width) (hn : n < 16 ^ width)
    (h : padded width m = padded width n) : m = n := by
  induction width generalizing m n with
  | zero => omega
  | succ width ih =>
    rw [Nat.pow_succ] at hm hn
    obtain ⟨hfront, hlast⟩ := List.append_inj' h rfl
    have hvalue := congrArg value? (List.singleton_inj.mp hlast)
    rw [value?_digit _ _ (Nat.mod_lt m (by decide)), value?_digit _ _ (Nat.mod_lt n (by decide))]
      at hvalue
    have hmod : m % 16 = n % 16 := Option.some.inj hvalue
    have hdiv : m / 16 = n / 16 := ih (by omega) (by omega) hfront
    omega

end RadioAdmin.Hex
