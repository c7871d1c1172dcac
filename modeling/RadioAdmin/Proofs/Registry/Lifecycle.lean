import RadioAdmin.Proofs.Registry.Basic
import RadioAdmin.Proofs.Transaction.Evolution

/-!
# Transactions over a run of the registry

Every operation lets a stored transaction evolve or takes it out, the latter only as a cleanup
of one that has ended. No begin gives out an identifier again while the sequence of numbers
lasts, so what has been taken out is gone for good.
-/
namespace RadioAdmin.Registry

open Transaction (Timed)

/-- The registry after a list of operations. -/
def after (registry : Registry) (ops : List Op) : Registry := (registry.run ops).1

theorem after_cons (registry : Registry) (op : Op) (rest : List Op) :
    registry.after (op :: rest) = (registry.step op).1.after rest := rfl

theorem after_append (registry : Registry) (front back : List Op) :
    registry.after (front ++ back) = (registry.after front).after back := by
  induction front generalizing registry with
  | nil => rfl
  | cons op rest ih => rw [List.cons_append, after_cons, after_cons, ih]

theorem run_cons (registry : Registry) (op : Op) (rest : List Op) :
    registry.run (op :: rest) =
      (((registry.step op).1.run rest).1,
        (registry.step op).2 :: ((registry.step op).1.run rest).2) := rfl

theorem run_append (registry : Registry) (front back : List Op) :
    registry.run (front ++ back) =
      (((registry.after front).run back).1,
        (registry.run front).2 ++ ((registry.after front).run back).2) := by
  induction front generalizing registry with
  | nil => rfl
  | cons op rest ih =>
    rw [List.cons_append, run_cons, ih]
    rfl

def Op.isCleanup : Op → Bool
  | .cleanupOld _ _ | .cleanupEndedBefore _ => true
  | _ => false

variable {registry : Registry} {id : TransactionId} {t u : Transaction}

theorem changeMeant_spec (target : TransactionId) {change : Transaction → Transaction}
    (htimed : Timed t)
    (h : t.isActive = true → t.Evolves (change t) ∧ Timed (change t)) :
    t.Evolves (changeMeant target id change t) ∧ Timed (changeMeant target id change t) := by
  rw [changeMeant]
  split
  · exact h ‹_ ∧ _›.2
  · exact ⟨.refl t, htimed⟩

theorem eq_of_unlessEnded {cutoff : Instant} (h : unlessEnded cutoff t = some u) : u = t := by
  rw [unlessEnded] at h
  split at h
  · cases h
  · exact (Option.some.inj h).symm

theorem inactive_of_unlessEnded {cutoff : Instant} (h : unlessEnded cutoff t = none) :
    t.isActive = false := by
  rw [unlessEnded, hasEndedBy] at h
  cases ha : t.isActive with
  | false => rfl
  | true => simp [ha] at h

/-- What an operation leaves stored has evolved. -/
theorem Op.effect_spec (htimed : Timed t) {op : Op} (h : op.effect id t = some u) :
    t.Evolves u ∧ Timed u := by
  cases op with
  | begin node now =>
    obtain rfl := Option.some.inj h
    exact ⟨.refl _, htimed⟩
  | register target request =>
    obtain rfl := Option.some.inj h
    exact changeMeant_spec target htimed fun ha => ⟨Transaction.evolves_append _ ha, htimed⟩
  | markApplied target key packet =>
    obtain rfl := Option.some.inj h
    exact changeMeant_spec target htimed fun ha =>
      ⟨Transaction.evolves_resolveFirst? key (fun _ => .apply packet) ha,
        Transaction.timed_resolveFirst? key _ htimed⟩
  | markFailed target key message =>
    obtain rfl := Option.some.inj h
    exact changeMeant_spec target htimed fun ha =>
      ⟨Transaction.evolves_resolveFirst? key (fun _ => .fail message) ha,
        Transaction.timed_resolveFirst? key _ htimed⟩
  | markBeginSent target =>
    obtain rfl := Option.some.inj h
    exact changeMeant_spec target htimed fun ha => ⟨Transaction.evolves_beginSent ha, htimed⟩
  | markCommitSent target =>
    obtain rfl := Option.some.inj h
    exact changeMeant_spec target htimed fun ha => ⟨Transaction.evolves_commitSent ha, htimed⟩
  | complete target now =>
    obtain rfl := Option.some.inj h
    split
    · exact ⟨Transaction.evolves_finish now htimed, fun _ => rfl⟩
    · exact ⟨.refl t, htimed⟩
  | abort target now =>
    obtain rfl := Option.some.inj h
    exact changeMeant_spec target htimed fun ha =>
      ⟨(Transaction.evolves_failPending abortMessage ha).trans
        (Transaction.evolves_finish now htimed), fun _ => rfl⟩
  | cleanupOld age now =>
    rw [effect] at h
    split at h
    · obtain rfl := eq_of_unlessEnded h
      exact ⟨.refl _, htimed⟩
    · obtain rfl := Option.some.inj h
      exact ⟨.refl _, htimed⟩
  | cleanupEndedBefore cutoff =>
    obtain rfl := eq_of_unlessEnded h
    exact ⟨.refl _, htimed⟩

/-- What an operation takes out has ended, and the operation is a cleanup. -/
theorem Op.effect_eq_none {op : Op} (h : op.effect id t = none) :
    op.isCleanup = true ∧ t.isActive = false := by
  cases op with
  | cleanupOld age now =>
    rw [effect] at h
    split at h
    · exact ⟨rfl, inactive_of_unlessEnded h⟩
    · cases h
  | cleanupEndedBefore cutoff => exact ⟨rfl, inactive_of_unlessEnded h⟩
  | _ => cases h

/-- How many transactions a list of operations begins. -/
def begins (ops : List Op) : Nat := ops.countP Op.isBegin

theorem begins_cons (op : Op) (rest : List Op) :
    begins (op :: rest) = begins [op] + begins rest := by
  rw [begins, begins, begins, List.countP_cons, List.countP_singleton]
  omega

theorem begins_append (front back : List Op) :
    begins (front ++ back) = begins front + begins back := List.countP_append

theorem toNat_succ {sequence : UInt64} (h : sequence.toNat + 1 < UInt64.size) :
    (sequence + 1).toNat = sequence.toNat + 1 := by
  rw [UInt64.toNat_add, UInt64.toNat_one]
  exact Nat.mod_eq_of_lt h

theorem toNat_sequence_step {op : Op}
    (hroom : registry.sequence.toNat + begins [op] < UInt64.size) :
    (registry.step op).1.sequence.toNat = registry.sequence.toNat + begins [op] := by
  rw [sequence_step, begins, List.countP_singleton]
  rw [begins, List.countP_singleton] at hroom
  split
  · rename_i hb
    rw [if_pos hb] at hroom
    exact toNat_succ hroom
  · omega

/-- An identifier with a number that has been reached. -/
def Given (registry : Registry) (id : TransactionId) : Prop :=
  ∃ node number, id = .generate node number ∧ number.toNat ≤ registry.sequence.toNat

/-- What has been given out stays so while the counter does not go back. -/
theorem Given.mono {other : Registry} (h : registry.Given id)
    (hle : registry.sequence.toNat ≤ other.sequence.toNat) : other.Given id := by
  obtain ⟨node, number, hid, hnumber⟩ := h
  exact ⟨node, number, hid, Nat.le_trans hnumber hle⟩

theorem Given.step (h : registry.Given id) {op : Op}
    (hroom : registry.sequence.toNat + begins [op] < UInt64.size) :
    (registry.step op).1.Given id :=
  h.mono ((toNat_sequence_step hroom).symm ▸ Nat.le_add_right ..)

/-- A begin does not give out an identifier again. -/
theorem Given.not_new (h : registry.Given id) {op : Op}
    (hroom : registry.sequence.toNat + begins [op] < UInt64.size) :
    op.newId? registry ≠ some id := by
  obtain ⟨node, number, rfl, hle⟩ := h
  intro hnew
  cases op with
  | begin other now =>
    have hnumber := TransactionId.generate_sequence (Option.some.inj hnew)
    have hsucc : (registry.sequence + 1).toNat = registry.sequence.toNat + 1 := toNat_succ hroom
    rw [← hnumber, hsucc] at hle
    omega
  | _ => cases hnew

/-- What holds of a registry that has been built by its operations. -/
structure Valid (registry : Registry) : Prop where
  distinct : Fields.Distinct registry.transactions
  given : ∀ id t, registry.get? id = some t → registry.Given id
  timed : ∀ id t, registry.get? id = some t → Timed t

theorem valid_empty : empty.Valid where
  distinct := List.nodup_nil
  given _ _ h := by cases h
  timed _ _ h := by cases h

/-- What is stored after an operation is new or has become of what was stored. -/
theorem exists_of_get?_step (hd : Fields.Distinct registry.transactions) {op : Op}
    (h : (registry.step op).1.get? id = some u) :
    (∃ node now, op = .begin node now ∧ id = .generate node (registry.sequence + 1) ∧
      u = .start id node now) ∨
    ∃ t, registry.get? id = some t ∧ op.effect id t = some u := by
  by_cases hnew : op.newId? registry = some id
  · cases op with
    | begin node now =>
      have hid : TransactionId.generate node (registry.sequence + 1) = id := Option.some.inj hnew
      rw [get?_step_begin, if_pos hid] at h
      exact Or.inl ⟨node, now, rfl, hid.symm, (Option.some.inj h).symm⟩
    | _ => cases hnew
  · rw [get?_step hd hnew] at h
    exact Or.inr (Option.bind_eq_some_iff.mp h)

theorem Valid.step (hv : registry.Valid) {op : Op}
    (hroom : registry.sequence.toNat + begins [op] < UInt64.size) : (registry.step op).1.Valid where
  distinct := distinct_step hv.distinct op
  given := by
    intro id u hget
    rcases exists_of_get?_step hv.distinct hget with ⟨node, now, rfl, rfl, -⟩ | ⟨t, ht, -⟩
    · exact ⟨node, _, rfl, Nat.le_refl _⟩
    · exact (hv.given id t ht).step hroom
  timed := by
    intro id u hget
    rcases exists_of_get?_step hv.distinct hget with ⟨node, now, -, -, rfl⟩ | ⟨t, ht, hu⟩
    · intro hinactive
      cases hinactive
    · exact (Op.effect_spec (hv.timed id t ht) hu).2

/-- The room for the rest of a run after its first operation. -/
theorem room_step {op : Op} {rest : List Op}
    (hroom : registry.sequence.toNat + begins (op :: rest) < UInt64.size) :
    registry.sequence.toNat + begins [op] < UInt64.size ∧
      (registry.step op).1.sequence.toNat + begins rest < UInt64.size := by
  rw [begins_cons] at hroom
  have hop : registry.sequence.toNat + begins [op] < UInt64.size := by omega
  refine ⟨hop, ?_⟩
  rw [toNat_sequence_step hop]
  omega

theorem toNat_sequence_after {ops : List Op}
    (hroom : registry.sequence.toNat + begins ops < UInt64.size) :
    (registry.after ops).sequence.toNat = registry.sequence.toNat + begins ops := by
  induction ops generalizing registry with
  | nil => rfl
  | cons op rest ih =>
    obtain ⟨hop, hrest⟩ := room_step hroom
    rw [after_cons, ih hrest, toNat_sequence_step hop, begins_cons op rest]
    omega

theorem Given.after (h : registry.Given id) {ops : List Op}
    (hroom : registry.sequence.toNat + begins ops < UInt64.size) :
    (registry.after ops).Given id :=
  h.mono ((toNat_sequence_after hroom).symm ▸ Nat.le_add_right ..)

theorem Valid.after (hv : registry.Valid) {ops : List Op}
    (hroom : registry.sequence.toNat + begins ops < UInt64.size) : (registry.after ops).Valid := by
  induction ops generalizing registry with
  | nil => exact hv
  | cons op rest ih =>
    obtain ⟨hop, hrest⟩ := room_step hroom
    exact ih (hv.step hop) hrest

/-- An identifier that has been given out and has no transaction never has one again. -/
theorem get?_after_eq_none (hv : registry.Valid) (hgiven : registry.Given id)
    (hnone : registry.get? id = none) {ops : List Op}
    (hroom : registry.sequence.toNat + begins ops < UInt64.size) :
    (registry.after ops).get? id = none := by
  induction ops generalizing registry with
  | nil => exact hnone
  | cons op rest ih =>
    obtain ⟨hop, hrest⟩ := room_step hroom
    have hstep : (registry.step op).1.get? id = none := by
      rw [get?_step hv.distinct (hgiven.not_new hop), hnone, Option.bind_none]
    exact ih (hv.step hop) (hgiven.step hop) hstep hrest

/-- Between two points of a run at which it is stored, a transaction evolves. -/
theorem evolves_after (hv : registry.Valid) {ops : List Op}
    (hroom : registry.sequence.toNat + begins ops < UInt64.size) (hget : registry.get? id = some t)
    (hlater : (registry.after ops).get? id = some u) : t.Evolves u := by
  induction ops generalizing registry t with
  | nil =>
    obtain rfl := Option.some.inj (hget.symm.trans hlater)
    exact .refl t
  | cons op rest ih =>
    obtain ⟨hop, hrest⟩ := room_step hroom
    have hgiven := hv.given id t hget
    have hstep := get?_step hv.distinct (hgiven.not_new hop)
    rw [hget, Option.bind_some] at hstep
    rw [after_cons] at hlater
    cases he : op.effect id t with
    | none =>
      -- Had the operation taken it out, it would not be stored at the end either.
      rw [he] at hstep
      rw [get?_after_eq_none (hv.step hop) (hgiven.step hop) hstep hrest] at hlater
      cases hlater
    | some next =>
      rw [he] at hstep
      have hnext := (Op.effect_spec (hv.timed id t hget) he).1
      exact hnext.trans (ih (hv.step hop) hrest hstep hlater)

/-- What is stored no more has been taken out by a cleanup after it had ended. -/
theorem exists_cleanup (hv : registry.Valid) {ops : List Op}
    (hroom : registry.sequence.toNat + begins ops < UInt64.size) (hget : registry.get? id = some t)
    (hgone : (registry.after ops).get? id = none) :
    ∃ front op back u, ops = front ++ op :: back ∧ op.isCleanup = true ∧
      (registry.after front).get? id = some u ∧ u.isActive = false ∧
      (registry.after (front ++ [op])).get? id = none := by
  induction ops generalizing registry t with
  | nil =>
    rw [show registry.after [] = registry from rfl, hget] at hgone
    cases hgone
  | cons op rest ih =>
    obtain ⟨hop, hrest⟩ := room_step hroom
    have hstep := get?_step hv.distinct ((hv.given id t hget).not_new hop)
    rw [hget, Option.bind_some] at hstep
    cases he : op.effect id t with
    | none =>
      obtain ⟨hcleanup, hinactive⟩ := Op.effect_eq_none he
      rw [he] at hstep
      exact ⟨[], op, rest, t, rfl, hcleanup, hget, hinactive, hstep⟩
    | some next =>
      rw [he] at hstep
      obtain ⟨front, last, back, u, hrun, hcleanup, hu, hinactive, hnone⟩ :=
        ih (hv.step hop) hrest hstep hgone
      exact ⟨op :: front, last, back, u, by rw [hrun, List.cons_append], hcleanup, hu, hinactive,
        hnone⟩

end RadioAdmin.Registry
