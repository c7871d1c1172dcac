import RadioAdmin.Compare.Agreement

/-!
# Equal doubles are near

The difference of two finite doubles that compare as equal is a zero, of either sign, and a
zero is within the tolerance.
-/
namespace RadioAdmin.Compare

open Float.Model (UnpackedFloat)

private theorem eq_of_compare_then {e f : Int} {m n : Nat}
    (h : (compare e f).then (compare m n) = .eq) : e = f ∧ m = n := by
  rw [Ordering.then_eq_eq] at h
  exact ⟨Int.compare_eq_eq.mp h.1, Nat.compare_eq_eq.mp h.2⟩

private theorem normalize_sub_self (spec : Float.Model.Format) (mantissa exponent : Int)
    (zeroSign : UnpackedFloat.Sign) :
    UnpackedFloat.normalize spec (mantissa - mantissa) exponent zeroSign = .zero zeroSign := by
  rw [Int.sub_self]
  rfl

/-- Equal finite numbers are zeros, or have the same sign, mantissa and exponent. -/
theorem exists_sub_eq_zero (spec : Float.Model.Format) {a b : UnpackedFloat}
    (hfinite : a.isFinite = true) (h : a.compare b = some .eq) :
    ∃ sign, UnpackedFloat.sub spec a b = .zero sign := by
  cases a with
  | infinity s => cases hfinite
  | notANumber => cases hfinite
  | zero s =>
    cases b with
    | infinity t => cases t <;> cases h
    | notANumber => cases h
    | zero t => exact ⟨_, (apply_ite _ _ _ _).symm⟩
    | finite t m e hm => cases t <;> cases h
  | finite s m e hm =>
    cases b with
    | infinity t => cases s <;> cases t <;> cases h
    | notANumber => cases s <;> cases h
    | zero t => cases s <;> cases h
    | finite t n f hn =>
      have hsame : s = t ∧ e = f ∧ m = n := by
        cases s <;> cases t
        · have hs := Ordering.swap_eq_eq.mp (Option.some.inj h)
          exact ⟨rfl, eq_of_compare_then hs⟩
        · cases h
        · cases h
        · exact ⟨rfl, eq_of_compare_then (Option.some.inj h)⟩
      obtain ⟨rfl, rfl, rfl⟩ := hsame
      exact ⟨.positive, normalize_sub_self spec _ _ .positive⟩

theorem beq_self_of_isFinite {x : Float} (hfinite : x.isFinite = true) : (x == x) = true := by
  have hc : x.toModel.unpack.compare x.toModel.unpack = some .eq := by
    have hu : x.toModel.unpack.isFinite = true := hfinite
    cases hx : x.toModel.unpack with
    | infinity s => rw [hx] at hu; cases hu
    | notANumber => rw [hx] at hu; cases hu
    | zero s => rfl
    | finite s m e hm =>
      have hself : (compare e e).then (compare m m) = .eq := by
        rw [Int.compare_eq_eq.mpr rfl, Nat.compare_eq_eq.mpr rfl]
        rfl
      cases s with
      | positive => exact congrArg some hself
      | negative => exact congrArg (fun o => some (Ordering.swap o)) hself
  show (x.toModel.unpack.compare x.toModel.unpack == some .eq) = true
  rw [hc]
  rfl

/-- Doubles that are finite and equal, zeros of both signs among them, are near. -/
theorem near_of_beq {x y : Float} (hfinite : x.isFinite = true) (h : (x == y) = true) :
    near x y = true := by
  have hc : x.toModel.unpack.compare y.toModel.unpack = some .eq := eq_of_beq h
  obtain ⟨sign, hsub⟩ := exists_sub_eq_zero .binary64 hfinite hc
  have hd : x - y = .ofModel (.pack (.zero sign)) :=
    congrArg (fun u => Float.ofModel (Float.Model.pack u)) hsub
  -- Two closed comparisons with the tolerance are left, one for each sign of the zero.
  rw [near, hd]
  cases sign <;> rfl

end RadioAdmin.Compare
