import RadioAdmin.Compare.Agreement

/-!
# The distance of two doubles

The difference of two doubles changes no more than its sign when they change places. A double keeps
its sign apart from its other bits, so the distance of the two is one double in either order.
-/
namespace RadioAdmin.Compare

open Float.Model (UnpackedFloat Format)
open Float.Model.UnpackedFloat (Sign pack packComponents unpack unpackExponent unpackMantissa)

variable (spec : Format)

/-- Rounding goes by the mantissa, whatever the sign. -/
theorem abs_round (s t : Sign) (mantissa : Nat) (exponent : Int) :
    (UnpackedFloat.round spec s mantissa exponent).abs =
      (UnpackedFloat.round spec t mantissa exponent).abs := by
  unfold UnpackedFloat.round UnpackedFloat.roundWithAccuracy
  dsimp only
  rw [apply_dite UnpackedFloat.abs, apply_dite UnpackedFloat.abs]
  rfl

theorem abs_normalize_neg (mantissa exponent : Int) (zeroSign : Sign) :
    (UnpackedFloat.normalize spec (-mantissa) exponent zeroSign).abs =
      (UnpackedFloat.normalize spec mantissa exponent zeroSign).abs := by
  rcases Int.lt_trichotomy mantissa 0 with h | rfl | h
  · have hneg : compare (-mantissa) 0 = .gt := Int.compare_eq_gt.mpr (by omega)
    rw [UnpackedFloat.normalize, UnpackedFloat.normalize, hneg, Int.compare_eq_lt.mpr h]
    exact abs_round spec ..
  · rfl
  · have hneg : compare (-mantissa) 0 = .lt := Int.compare_eq_lt.mpr (by omega)
    rw [UnpackedFloat.normalize, UnpackedFloat.normalize, hneg, Int.compare_eq_gt.mpr h]
    dsimp only
    rw [Int.neg_neg]
    exact abs_round spec ..

theorem abs_sub_comm (a b : UnpackedFloat) :
    (UnpackedFloat.sub spec a b).abs = (UnpackedFloat.sub spec b a).abs := by
  cases a with
  | notANumber => cases b <;> rfl
  | infinity s =>
    cases b with
    | infinity t => cases s <;> cases t <;> rfl
    | _ => rfl
  | zero s =>
    cases b with
    | zero t => cases s <;> cases t <;> rfl
    | _ => rfl
  | finite s m e hm =>
    cases b with
    | finite t n f hn =>
      delta UnpackedFloat.sub
      dsimp only
      rw [Int.min_comm f e, ← abs_normalize_neg, Int.neg_sub]
    | _ => rfl

theorem abs_finite_congr {s t : Sign} {m n : Nat} {e : Int} (hm : 0 < m) (hn : 0 < n)
    (h : m = n) : (UnpackedFloat.finite s m e hm).abs = (UnpackedFloat.finite t n e hn).abs := by
  subst h
  rfl

/-- What is stored with the same exponent and mantissa has the same magnitude. -/
theorem abs_unpack_congr {p q : BitVec spec.numBits}
    (hexponent : unpackExponent p = unpackExponent q)
    (hmantissa : unpackMantissa p = unpackMantissa q) :
    (unpack spec p).abs = (unpack spec q).abs := by
  delta unpack
  dsimp only
  rw [← hexponent]
  by_cases hinfinite : unpackExponent p = -BitVec.ofNat spec.exponentBits 1
  · rw [if_pos hinfinite, if_pos hinfinite, ← hmantissa]
    by_cases hzero : unpackMantissa p = BitVec.ofNat spec.mantissaBitsWithoutImplicit 0
    · rw [if_pos hzero, if_pos hzero]
      rfl
    · rw [if_neg hzero, if_neg hzero]
  · rw [if_neg hinfinite, if_neg hinfinite]
    by_cases hsmall : unpackExponent p = BitVec.ofNat spec.exponentBits 0
    · rw [if_pos hsmall, if_pos hsmall]
      by_cases hzero : unpackMantissa p = BitVec.ofNat spec.mantissaBitsWithoutImplicit 0
      · rw [dif_pos hzero, dif_pos (hmantissa ▸ hzero)]
        rfl
      · rw [dif_neg hzero, dif_neg (hmantissa ▸ hzero)]
        exact abs_finite_congr _ _ (by rw [hmantissa])
    · rw [if_neg hsmall, if_neg hsmall]
      exact abs_finite_congr _ _ (by rw [hmantissa])

/-- A number and its magnitude are stored with the same exponent and mantissa. -/
theorem exists_pack_eq (u : UnpackedFloat) :
    ∃ s t exponent mantissa, pack spec u = packComponents spec s exponent mantissa ∧
      pack spec u.abs = packComponents spec t exponent mantissa := by
  cases u with
  | notANumber => exact ⟨_, _, _, _, rfl, rfl⟩
  | infinity s => exact ⟨_, _, _, _, rfl, rfl⟩
  | zero s => exact ⟨_, _, _, _, rfl, rfl⟩
  | finite s m e hm =>
    delta UnpackedFloat.abs
    rw [pack.eq_def, pack.eq_def]
    dsimp only
    split
    · exact ⟨_, _, _, _, rfl, rfl⟩
    · split <;> exact ⟨_, _, _, _, rfl, rfl⟩

theorem abs_unpack_pack (u : UnpackedFloat) :
    (unpack spec (pack spec u)).abs = (unpack spec (pack spec u.abs)).abs := by
  obtain ⟨s, t, exponent, mantissa, hu, habs⟩ := exists_pack_eq spec u
  rw [hu, habs]
  apply abs_unpack_congr
  · rw [UnpackedFloat.unpackExponent_packComponents, UnpackedFloat.unpackExponent_packComponents]
  · rw [UnpackedFloat.unpackMantissa_packComponents, UnpackedFloat.unpackMantissa_packComponents]

/-- The distance of two doubles is the same in either order. -/
theorem distance_comm (x y : Float) : (x - y).abs = (y - x).abs := by
  have habs : ∀ x y : Float, (x - y).abs = .ofModel (.pack (unpack .binary64
      (pack .binary64 (UnpackedFloat.sub .binary64 x.toModel.unpack y.toModel.unpack))).abs) :=
    fun _ _ => rfl
  rw [habs, habs, abs_unpack_pack, abs_sub_comm, ← abs_unpack_pack]

theorem near_comm (x y : Float) : near x y = near y x := by
  rw [near, near, distance_comm]

end RadioAdmin.Compare
