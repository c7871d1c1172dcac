import RadioAdmin.Proofs.Registry.Ledger
import RadioAdmin.Proofs.Time.Instant

/-!
# What a cleanup takes out

Both cleanups take out the transactions that meet a condition and count them. The one by age takes
out what ended at least that long ago in unbounded arithmetic: where its own arithmetic gives up, no
transaction is that old. Two cleanups up to a time are one up to the later time.
-/
namespace RadioAdmin

/-- Whether a transaction ended at least an age in seconds before a time. -/
def Transaction.HasAged (age : Nat) (now : Instant) (t : Transaction) : Prop :=
  t.isActive = false ∧
    ∃ ended ∈ t.endedAt, ended.toNanos + age * Instant.nanosPerSecond ≤ now.toNanos

instance (age : Nat) (now : Instant) : DecidablePred (Transaction.HasAged age now) :=
  fun _ => instDecidableAnd

/-- Age zero is reached at the end. -/
theorem Transaction.hasAged_zero {t : Transaction} {now : Instant} (hnow : now.IsReading)
    (htimed : t.Timed) (hinactive : t.isActive = false)
    (hended : ∀ ended ∈ t.endedAt, ended.IsReading)
    (hpast : ∀ ended ∈ t.endedAt, ended.after now = false) : t.HasAged 0 now := by
  obtain ⟨ended, htime⟩ := Option.isSome_iff_exists.mp (htimed hinactive)
  have hle := hpast ended htime
  rw [← Bool.not_eq_true, Instant.after_iff_toNanos (hended ended htime) hnow] at hle
  refine ⟨hinactive, ended, htime, ?_⟩
  omega

namespace Registry

/-- A registry without the transactions that meet a condition, and how many they are. -/
def takeOut (registry : Registry) (meets : Transaction → Bool) : Registry × Nat :=
  ({ registry with transactions := registry.transactions.filter fun entry => !meets entry.2 },
    registry.transactions.countP fun entry => meets entry.2)

variable {registry : Registry}

theorem takeOut_congr {meets other : Transaction → Bool}
    (h : ∀ t ∈ Fields.contents registry.transactions, meets t = other t) :
    registry.takeOut meets = registry.takeOut other := by
  have hentry : ∀ entry ∈ registry.transactions, meets entry.2 = other entry.2 :=
    fun entry hentry => h entry.2 (List.mem_map_of_mem hentry)
  have hkept : (registry.transactions.filter fun entry => !meets entry.2) =
      registry.transactions.filter fun entry => !other entry.2 :=
    List.filter_congr fun entry hmem => by rw [hentry entry hmem]
  have hcount : (registry.transactions.countP fun entry => meets entry.2) =
      registry.transactions.countP fun entry => other entry.2 :=
    List.countP_congr fun entry hmem => by rw [hentry entry hmem]
  rw [takeOut, takeOut, hkept, hcount]

theorem takeOut_false : registry.takeOut (fun _ => false) = (registry, 0) := by
  simp [takeOut]

/-- What is taken out in two goes is taken out in one. -/
theorem takeOut_takeOut (registry : Registry) (meets other : Transaction → Bool) :
    (((registry.takeOut meets).1.takeOut other).1,
        (registry.takeOut meets).2 + ((registry.takeOut meets).1.takeOut other).2) =
      registry.takeOut fun t => meets t || other t := by
  have hkept : (registry.transactions.filter fun entry => !meets entry.2).filter
      (fun entry => !other entry.2) =
      registry.transactions.filter fun entry => !(meets entry.2 || other entry.2) := by
    rw [List.filter_filter]
    exact List.filter_congr fun entry _ => by rw [Bool.not_or, Bool.and_comm]
  have hcount : (registry.transactions.countP fun entry => meets entry.2) +
      (registry.transactions.filter fun entry => !meets entry.2).countP
        (fun entry => other entry.2) =
      registry.transactions.countP fun entry => meets entry.2 || other entry.2 := by
    rw [List.countP_eq_countP_filter_add registry.transactions
      (fun entry => meets entry.2 || other entry.2) fun entry => meets entry.2]
    simp only [List.countP_filter]
    congr 1
    · exact List.countP_congr fun entry _ => by cases meets entry.2 <;> simp
    · exact List.countP_congr fun entry _ => by cases meets entry.2 <;> simp
  simp only [takeOut]
  rw [hkept, hcount]

theorem get?_takeOut (hd : Fields.Distinct registry.transactions) (meets : Transaction → Bool)
    (id : TransactionId) :
    (registry.takeOut meets).1.get? id = (registry.get? id).filter fun t => !meets t :=
  Fields.get?_filter hd _ id.text

theorem mem_contents_takeOut {meets : Transaction → Bool} {t : Transaction} :
    t ∈ Fields.contents (registry.takeOut meets).1.transactions ↔
      t ∈ Fields.contents registry.transactions ∧ meets t = false := by
  simp only [Fields.contents, takeOut, List.mem_map, List.mem_filter, Bool.not_eq_true']
  constructor
  · rintro ⟨entry, ⟨hmem, hkept⟩, rfl⟩
    exact ⟨⟨entry, hmem, rfl⟩, hkept⟩
  · rintro ⟨⟨entry, hmem, rfl⟩, hkept⟩
    exact ⟨entry, ⟨hmem, hkept⟩, rfl⟩

theorem cleanupEndedBefore_eq (registry : Registry) (cutoff : Instant) :
    registry.cleanupEndedBefore cutoff = registry.takeOut (hasEndedBy cutoff) := by
  have hcount := List.length_eq_countP_add_countP (l := registry.transactions)
    (fun entry => hasEndedBy cutoff entry.2)
  have hkept : (registry.transactions.filter fun entry => !hasEndedBy cutoff entry.2).length =
      registry.transactions.countP fun entry => ¬ hasEndedBy cutoff entry.2 := by
    rw [List.countP_eq_length_filter]
    simp
  rw [cleanupEndedBefore, takeOut, hcount, ← hkept, Nat.add_sub_cancel_right]

theorem hasEndedBy_latest (first second : Instant) (t : Transaction) :
    hasEndedBy (first.latest second) t = (hasEndedBy first t || hasEndedBy second t) := by
  rw [hasEndedBy, hasEndedBy, hasEndedBy]
  cases t.isActive with
  | true => rfl
  | false =>
    cases t.endedAt with
    | none => rfl
    | some ended => simp [Instant.after_latest, Bool.not_and]

/-- A transaction that has ended is taken out by its time. -/
theorem hasEndedBy_iff {t : Transaction} (htimed : t.Timed) (cutoff : Instant) :
    hasEndedBy cutoff t = true ↔
      t.isActive = false ∧ ∃ ended ∈ t.endedAt, ended.after cutoff = false := by
  rw [hasEndedBy, Bool.and_eq_true, Bool.not_eq_true']
  refine and_congr_right fun hinactive => ?_
  obtain ⟨ended, hended⟩ := Option.isSome_iff_exists.mp (htimed hinactive)
  simp [hended]

/-- Where the cutoff of an age is in the range of time, it stands for the age. -/
theorem hasEndedBy_cutoff {t : Transaction} {age : Nat} {now cutoff : Instant} (htimed : t.Timed)
    (hnow : now.IsReading) (hended : ∀ ended ∈ t.endedAt, ended.IsReading)
    (hcutoff : now.minusSeconds? age = some cutoff) :
    hasEndedBy cutoff t = decide (t.HasAged age now) := by
  obtain ⟨hreading, hnanos⟩ := Instant.toNanos_of_minusSeconds? hnow hcutoff
  rw [Bool.eq_iff_iff, decide_eq_true_eq, hasEndedBy_iff htimed, Transaction.HasAged]
  refine and_congr_right fun _ => exists_congr fun ended => and_congr_right fun hmem => ?_
  rw [← Bool.not_eq_true, Instant.after_iff_toNanos (hended ended hmem) hreading, hnanos]
  omega

theorem not_hasAged_of_no_cutoff {t : Transaction} {age : Nat} {now : Instant}
    (hnow : now.IsReading) (hended : ∀ ended ∈ t.endedAt, ended.IsReading)
    (hcutoff : now.minusSeconds? age = none) : ¬ t.HasAged age now := by
  rintro ⟨-, ended, hmem, hle⟩
  have hlt := Instant.toNanos_lt_of_minusSeconds?_eq_none hnow (hended ended hmem) hcutoff
  omega

/-- The cleanup by age takes out what is that old, whether or not there is a cutoff. -/
theorem cleanupOld_eq (age : UInt64) {now : Instant} (hnow : now.IsReading)
    (htimed : ∀ t ∈ Fields.contents registry.transactions, t.Timed)
    (hended : ∀ t ∈ Fields.contents registry.transactions, ∀ ended ∈ t.endedAt, ended.IsReading) :
    registry.cleanupOld age now = registry.takeOut fun t => decide (t.HasAged age.toNat now) := by
  rw [cleanupOld]
  cases hcutoff : now.minusSeconds? age.toNat with
  | some cutoff =>
    refine (cleanupEndedBefore_eq registry cutoff).trans (takeOut_congr fun t ht => ?_)
    exact hasEndedBy_cutoff (htimed t ht) hnow (hended t ht) hcutoff
  | none =>
    refine takeOut_false.symm.trans (takeOut_congr fun t ht => ?_)
    exact (decide_eq_false (not_hasAged_of_no_cutoff hnow (hended t ht) hcutoff)).symm

/-- What is stored after a run is found under its identifier, and has its time if it has ended. -/
theorem timed_of_mem_contents (ops : List Op) :
    ∀ t ∈ Fields.contents (empty.after ops).transactions, t.Timed := by
  intro t ht
  obtain ⟨⟨name, stored⟩, hentry, rfl⟩ := List.mem_map.mp ht
  have hget : (empty.after ops).get? ⟨name⟩ = some stored :=
    Fields.get?_of_mem (distinct_after ops) hentry
  exact timed_after hget

/-- After every run, the cleanup by age takes out exactly what has ended and is that old, which is no
active transaction, every other one at age zero if none ends after the reading of the clock, and
none where the age or the cutoff is out of range. Two cleanups up to a time take out what one up to
the later time does. -/
theorem cleanups_take_out_aged (ops : List Op) :
    let registry := empty.after ops
    let stored := Fields.contents registry.transactions
    (∀ (age : UInt64) (now : Instant), now.IsReading →
      (∀ t ∈ stored, ∀ ended ∈ t.endedAt, ended.IsReading) →
      let cleaned := registry.cleanupOld age now
      cleaned = registry.takeOut (fun t => decide (t.HasAged age.toNat now)) ∧
      (∀ id t, registry.get? id = some t → t.isActive = true → cleaned.1.get? id = some t) ∧
      (age = 0 → (∀ t ∈ stored, ∀ ended ∈ t.endedAt, ended.after now = false) →
        ∀ t ∈ Fields.contents cleaned.1.transactions, t.isActive = true) ∧
      (Instant.maxSpan < age.toNat ∨ now.seconds - age.toNat < Instant.minSeconds →
        cleaned = (registry, 0))) ∧
    ∀ first second : Instant,
      let once := registry.cleanupEndedBefore first
      let twice := once.1.cleanupEndedBefore second
      (twice.1, once.2 + twice.2) = registry.cleanupEndedBefore (first.latest second) := by
  intro registry stored
  have htimed : ∀ t ∈ stored, t.Timed := timed_of_mem_contents ops
  refine ⟨fun age now hnow hended => ?_, fun first second => ?_⟩
  · have hcleaned := cleanupOld_eq age hnow htimed hended
    refine ⟨hcleaned, fun id t hget hactive => ?_, fun hage hpast t ht => ?_, fun hout => ?_⟩
    · have hyoung : ¬ t.HasAged age.toNat now := fun h => by
        rw [h.1] at hactive
        cases hactive
      rw [hcleaned, get?_takeOut (distinct_after ops), hget, Option.filter_some,
        decide_eq_false hyoung]
      rfl
    · rw [hcleaned, mem_contents_takeOut, decide_eq_false_iff_not] at ht
      obtain ⟨hmem, hyoung⟩ := ht
      by_contra hinactive
      rw [Bool.not_eq_true] at hinactive
      rw [hage] at hyoung
      exact hyoung (Transaction.hasAged_zero hnow (htimed t hmem) hinactive (hended t hmem)
        (hpast t hmem))
    · show registry.cleanupOld age now = _
      rw [cleanupOld, (Instant.minusSeconds?_eq_none_iff hnow.1).mpr hout]
  · show ((((registry.cleanupEndedBefore first).1).cleanupEndedBefore second).1, _) = _
    rw [cleanupEndedBefore_eq, cleanupEndedBefore_eq, cleanupEndedBefore_eq, takeOut_takeOut]
    exact takeOut_congr fun t _ => (hasEndedBy_latest first second t).symm

/-- Of two transactions that ended a billionth of a second apart, one is ten seconds old; a third one
is active. -/
theorem cleanups_take_out_aged_ten_seconds :
    let id (node : UInt32) (sequence : UInt64) : TransactionId := .generate ⟨node⟩ sequence
    let ops : List Op := [.begin ⟨1⟩ ⟨0, 0⟩, .begin ⟨2⟩ ⟨1, 0⟩, .begin ⟨3⟩ ⟨2, 0⟩,
      .complete (id 1 1) ⟨100, 5⟩, .abort (id 2 2) ⟨100, 6⟩]
    let registry := empty.after ops
    let now : Instant := ⟨110, 5⟩
    now.IsReading ∧
      (∀ t ∈ Fields.contents registry.transactions, ∀ ended ∈ t.endedAt, ended.IsReading) ∧
      Fields.names (registry.cleanupOld 10 now).1.transactions = [(id 2 2).text, (id 3 3).text] ∧
      (registry.cleanupOld 10 now).2 = 1 ∧
      (∀ t ∈ Fields.contents (registry.cleanupOld 0 now).1.transactions, t.isActive = true) ∧
      registry.cleanupOld 0xffffffffffffffff now = (registry, 0) ∧
      (registry.cleanupEndedBefore ⟨100, 5⟩).2 +
        ((registry.cleanupEndedBefore ⟨100, 5⟩).1.cleanupEndedBefore ⟨200, 0⟩).2 =
        (registry.cleanupEndedBefore ⟨200, 0⟩).2 := by
  intro id ops registry now
  have hnow : now.IsReading := by decide
  have hended : ∀ t ∈ Fields.contents registry.transactions, ∀ ended ∈ t.endedAt,
      ended.IsReading := by decide +kernel
  have hpast : ∀ t ∈ Fields.contents registry.transactions, ∀ ended ∈ t.endedAt,
      ended.after now = false := by decide +kernel
  obtain ⟨hcleanup, htwice⟩ := cleanups_take_out_aged ops
  have hten : registry.cleanupOld 10 now = _ := (hcleanup 10 now hnow hended).1
  refine ⟨hnow, hended, ?_, ?_, ?_, ?_, ?_⟩
  · rw [hten]
    decide +kernel
  · rw [hten]
    decide +kernel
  · exact (hcleanup 0 now hnow hended).2.2.1 rfl hpast
  · exact (hcleanup 0xffffffffffffffff now hnow hended).2.2.2 (Or.inl (by decide))
  · exact congrArg Prod.snd (htwice ⟨100, 5⟩ ⟨200, 0⟩)

end Registry

end RadioAdmin
