import RadioAdmin.Time.Instant

/-!
# Readings of the clock

A reading of the clock is a number of billionths of a second, and readings are ordered as these
numbers are. To take seconds off a reading is exact as long as the result stays in the range of the
calendar. Where it does not, more seconds were asked for than lie between any two readings.
-/
namespace RadioAdmin.Instant

/-- Billionths of a second from the start of 1970. -/
def toNanos (instant : Instant) : Int := instant.seconds * nanosPerSecond + instant.nanos

/-- An instant as the clock reads it: in the range of the calendar and in no leap second. -/
def IsReading (instant : Instant) : Prop :=
  instant.isInRange = true ∧ instant.nanos < nanosPerSecond

instance : DecidablePred IsReading := fun _ => instDecidableAnd

/-- The later one of two instants. -/
def latest (a b : Instant) : Instant := if a.after b then a else b

variable {a b now ended cutoff : Instant} {age : Nat}

theorem after_iff :
    a.after b = true ↔ b.seconds < a.seconds ∨ a.seconds = b.seconds ∧ b.nanos < a.nanos := by
  simp [after]

/-- Seconds are compared before billionths, which do not add up to another second. -/
theorem after_iff_toNanos (ha : a.IsReading) (hb : b.IsReading) :
    a.after b = true ↔ b.toNanos < a.toNanos := by
  have hna := ha.2
  have hnb := hb.2
  rw [after_iff]
  unfold toNanos
  unfold nanosPerSecond at *
  omega

theorem after_latest (instant a b : Instant) :
    instant.after (latest a b) = (instant.after a && instant.after b) := by
  rw [Bool.eq_iff_iff, Bool.and_eq_true, latest]
  split
  · rename_i hab
    simp only [after_iff] at hab ⊢
    omega
  · rename_i hab
    simp only [after_iff] at hab ⊢
    omega

theorem isInRange_iff :
    a.isInRange = true ↔ minSeconds ≤ a.seconds ∧ a.seconds ≤ maxSeconds := by
  rw [isInRange, Bool.and_eq_true, decide_eq_true_eq, decide_eq_true_eq]

/-- No two instants of the calendar lie further apart than the longest span. -/
theorem maxSeconds_sub_minSeconds_le : maxSeconds - minSeconds ≤ maxSpan := by decide

theorem minusSeconds?_eq_some (hspan : age ≤ maxSpan)
    (hrange : (Instant.mk (now.seconds - age) now.nanos).isInRange = true) :
    now.minusSeconds? age = some ⟨now.seconds - age, now.nanos⟩ := by
  rw [minusSeconds?, if_pos hspan]
  exact if_pos hrange

theorem minusSeconds?_eq_none_iff (hnow : now.isInRange = true) :
    now.minusSeconds? age = none ↔ maxSpan < age ∨ now.seconds - age < minSeconds := by
  rw [isInRange_iff] at hnow
  by_cases hspan : age ≤ maxSpan
  · by_cases hrange : minSeconds ≤ now.seconds - age
    · have hin : (Instant.mk (now.seconds - age) now.nanos).isInRange = true :=
        isInRange_iff.mpr ⟨hrange, by dsimp only; omega⟩
      rw [minusSeconds?_eq_some hspan hin]
      refine iff_of_false (fun h => by cases h) ?_
      omega
    · have hout : ¬ (Instant.mk (now.seconds - age) now.nanos).isInRange = true :=
        fun hin => hrange (isInRange_iff.mp hin).1
      rw [minusSeconds?, if_pos hspan]
      refine iff_of_true (if_neg hout) ?_
      omega
  · rw [minusSeconds?, if_neg hspan]
    refine iff_of_true rfl ?_
    omega

/-- What is left of a reading is a reading, and lies exactly so much earlier. -/
theorem toNanos_of_minusSeconds? (hnow : now.IsReading)
    (h : now.minusSeconds? age = some cutoff) :
    cutoff.IsReading ∧ cutoff.toNanos = now.toNanos - age * nanosPerSecond := by
  rw [minusSeconds?] at h
  split at h
  · dsimp only at h
    split at h
    · rename_i hin
      obtain rfl := Option.some.inj h
      refine ⟨⟨hin, hnow.2⟩, ?_⟩
      simp only [toNanos, Int.sub_mul]
      omega
    · cases h
  · cases h

/-- An age that reaches out of the range of time is one that no reading has. -/
theorem toNanos_lt_of_minusSeconds?_eq_none (hnow : now.IsReading) (hended : ended.IsReading)
    (h : now.minusSeconds? age = none) :
    now.toNanos < ended.toNanos + age * nanosPerSecond := by
  have hout := (minusSeconds?_eq_none_iff hnow.1).mp h
  obtain ⟨hleast, -⟩ := isInRange_iff.mp hended.1
  obtain ⟨-, hgreatest⟩ := isInRange_iff.mp hnow.1
  have hwidth := maxSeconds_sub_minSeconds_le
  have hseconds : now.seconds < ended.seconds + age := by omega
  have hnanos := hnow.2
  unfold toNanos
  unfold nanosPerSecond at *
  omega

end RadioAdmin.Instant
