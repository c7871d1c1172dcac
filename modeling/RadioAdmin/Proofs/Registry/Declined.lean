import RadioAdmin.Proofs.Registry.Action
import RadioAdmin.Proofs.Registry.Ledger

/-!
# Operations that are declined

Every operation on a transaction is declined without one, and every operation but a completion is
declined by one that has ended; a mark is declined, too, when nothing is pending for its key. What
is declined leaves the registry as it was, and so does the completion of an ended transaction.
-/
namespace RadioAdmin.Registry

/-- A transaction that has ended is stored under an identifier. -/
def HasEnded (registry : Registry) (id : TransactionId) : Prop :=
  ∃ t, registry.get? id = some t ∧ t.isActive = false

variable {registry : Registry} {id : TransactionId} {t : Transaction}

theorem not_hasEnded_of_none (hget : registry.get? id = none) : ¬ registry.HasEnded id := by
  rintro ⟨t, ht, -⟩
  rw [hget] at ht
  cases ht

theorem hasEnded_iff (hget : registry.get? id = some t) :
    registry.HasEnded id ↔ t.isActive = false := by
  constructor
  · rintro ⟨u, hu, hended⟩
    obtain rfl := Option.some.inj (hget.symm.trans hu)
    exact hended
  · exact fun hended => ⟨t, hget, hended⟩

/-- What does not perform an action keeps the transaction. -/
theorem Action.act_of_refusal {action : Action} (h : (action.act id t).2.isRefusal = true) :
    (action.act id t).1 = t := by
  cases htaken : action.isTakenBy t with
  | false => rw [act_of_not_taken id action htaken]
  | true =>
    rw [act_of_taken id action htaken] at h ⊢
    cases action with
    | mark key resolution =>
      -- Nothing is pending for the key, so nothing has been resolved.
      have hnone : t.resolveFirst? key resolution.resolve = none := by
        simpa [perform, Answer.isRefusal] using h
      rw [perform, resolved, hnone, Option.getD_none]
    | _ => cases h

/-- A declined operation leaves the whole registry as it was. -/
theorem step_of_refusal {op : Op} (htarget : op.target? = some id)
    (h : (registry.step op).2.isRefusal = true) : (registry.step op).1 = registry := by
  obtain ⟨action, rfl⟩ := exists_action htarget
  cases hget : registry.get? id with
  | none => rw [step_on_of_none action hget]
  | some t =>
    rw [step_on, hget, Action.answer] at h
    rw [step_on, update_eq_self hget (Action.act_of_refusal h)]

theorem refused_register_iff (request : ChangeRequest) (error : RegistryError) :
    (registry.step (.register id request)).2 = .refused error ↔
      error = .notFound id ∧ registry.get? id = none ∨
        error = .inactive id ∧ registry.HasEnded id := by
  show (registry.step ((Action.register request).on id)).2 = .refused error ↔ _
  cases hget : registry.get? id with
  | none =>
    rw [step_on_of_none _ hget]
    simp [Action.declined, not_hasEnded_of_none hget, eq_comm]
  | some t =>
    rw [hasEnded_iff hget]
    cases hactive : t.isActive with
    | true => simp [step_on_of_taken (.register request) hget hactive, Action.perform]
    | false =>
      rw [step_on_of_not_taken (.register request) hget hactive]
      simp [Action.declined, eq_comm]

theorem refused_complete_iff (now : Instant) (error : RegistryError) :
    (registry.step (.complete id now)).2 = .refused error ↔
      error = .notFound id ∧ registry.get? id = none := by
  show (registry.step ((Action.complete now).on id)).2 = .refused error ↔ _
  cases hget : registry.get? id with
  | none =>
    rw [step_on_of_none _ hget]
    simp [Action.declined, eq_comm]
  | some t => simp [step_on_of_taken (.complete now) hget rfl, Action.perform]

/-- What is only answered by success or failure fails without an active transaction, or when the
transaction fails it. -/
theorem done_false_iff (action : Action) (htaken : ∀ t, action.isTakenBy t = t.isActive)
    (hdeclined : ∀ error, action.declined error = .done false) :
    (registry.step (action.on id)).2 = .done false ↔
      registry.get? id = none ∨ registry.HasEnded id ∨
        ∃ t, registry.get? id = some t ∧ (action.perform t).2 = .done false := by
  cases hget : registry.get? id with
  | none => simp [step_on_of_none action hget, hdeclined]
  | some t =>
    rw [hasEnded_iff hget]
    cases hactive : t.isActive with
    | true => simp [step_on_of_taken action hget ((htaken t).trans hactive)]
    | false => simp [step_on_of_not_taken action hget ((htaken t).trans hactive), hdeclined]

/-- The markers and an abort fail for want of an active transaction alone. -/
theorem done_false_iff_of_done (action : Action) (htaken : ∀ t, action.isTakenBy t = t.isActive)
    (hdeclined : ∀ error, action.declined error = .done false)
    (hdone : ∀ t, (action.perform t).2 = .done true) :
    (registry.step (action.on id)).2 = .done false ↔
      registry.get? id = none ∨ registry.HasEnded id := by
  rw [done_false_iff action htaken hdeclined]
  simp [hdone]

theorem done_false_mark_iff (key : String) (resolution : Resolution) :
    (registry.step (resolution.mark id key)).2 = .done false ↔
      registry.get? id = none ∨ registry.HasEnded id ∨
        ∃ t, registry.get? id = some t ∧
          ∀ change ∈ t.changes, change.isPendingFor key = false := by
  have hfail : ∀ t, (Action.perform t (.mark key resolution)).2 = .done false ↔
      ∀ change ∈ t.changes, change.isPendingFor key = false := by
    intro t
    have hnone : t.resolveFirst? key resolution.resolve = none ↔ _ :=
      Transaction.resolveFirst?_eq_none_iff
    simp [Action.perform, ← hnone]
  rw [← exists_congr fun t => and_congr_right fun _ => hfail t]
  exact done_false_iff (.mark key resolution) (fun _ => rfl) fun _ => rfl

/-- In every registry that has been built by its operations, an operation on a transaction is
declined exactly for these reasons: a registration as not found or as inactive, a completion as
not found, and an operation that is answered by success or failure in both cases, a mark also when
nothing is pending for its key. Whatever is declined leaves the registry as it was, and so does the
completion of a transaction that has ended. -/
theorem declined_unchanged (ops : List Op) (id : TransactionId) :
    let registry := empty.after ops
    (∀ request error, (registry.step (.register id request)).2 = .refused error ↔
      error = .notFound id ∧ registry.get? id = none ∨
        error = .inactive id ∧ registry.HasEnded id) ∧
    (∀ now error, (registry.step (.complete id now)).2 = .refused error ↔
      error = .notFound id ∧ registry.get? id = none) ∧
    (∀ key resolution, (registry.step (Resolution.mark id key resolution)).2 = .done false ↔
      registry.get? id = none ∨ registry.HasEnded id ∨
        ∃ t, registry.get? id = some t ∧
          ∀ change ∈ t.changes, change.isPendingFor key = false) ∧
    (∀ now, ∀ op ∈ [Op.markBeginSent id, .markCommitSent id, .abort id now],
      (registry.step op).2 = .done false ↔ registry.get? id = none ∨ registry.HasEnded id) ∧
    (∀ op, op.target? = some id → (registry.step op).2.isRefusal = true →
      (registry.step op).1 = registry) ∧
    (∀ t now, registry.get? id = some t → t.isActive = false →
      registry.step (.complete id now) = (registry, .completed t.summary)) := by
  intro registry
  refine ⟨refused_register_iff, refused_complete_iff, done_false_mark_iff, fun now op hop => ?_,
    fun op => step_of_refusal, fun t now hget hended => ?_⟩
  · simp only [List.mem_cons, List.not_mem_nil, or_false] at hop
    rcases hop with rfl | rfl | rfl
    · exact done_false_iff_of_done .beginSent (fun _ => rfl) (fun _ => rfl) fun _ => rfl
    · exact done_false_iff_of_done .commitSent (fun _ => rfl) (fun _ => rfl) fun _ => rfl
    · exact done_false_iff_of_done (.abort now) (fun _ => rfl) (fun _ => rfl) fun _ => rfl
  · exact step_complete_of_ended hget (timed_after hget) hended now

/-- A mark of a key for which nothing is pending is declined, and so are a mark of the pending key
and an abort once the transaction has been completed. A second completion reports the same. -/
theorem declined_unchanged_completed :
    let id : TransactionId := .generate ⟨1⟩ 1
    let front : List Op := [.begin ⟨1⟩ ⟨0, 0⟩,
      .register id ⟨.config, ⟨1⟩, "lora", none, .int 1, true⟩]
    let back : List Op := [.complete id ⟨5, 0⟩]
    let registry := empty.after front
    let ended := empty.after (front ++ back)
    ((registry.step (.markApplied id "power" none)).2.isRefusal = true ∧
      (registry.step (.markApplied id "power" none)).1 = registry) ∧
    (registry.step (.markApplied id "lora" none)).2.isRefusal = false ∧
    (∀ op ∈ [Op.markApplied id "lora" none, .abort id ⟨6, 0⟩],
      (ended.step op).2.isRefusal = true ∧ (ended.step op).1 = ended) ∧
    ∃ t : Transaction, t.summary.pending = 1 ∧
      ended.step (.complete id ⟨6, 0⟩) = (ended, .completed t.summary) := by
  intro id front back registry ended
  obtain ⟨-, -, -, -, hunchanged, -⟩ := declined_unchanged front id
  obtain ⟨-, -, -, -, hunchangedEnded, hcompleted⟩ := declined_unchanged (front ++ back) id
  have hother : (registry.step (.markApplied id "power" none)).2.isRefusal = true := by
    decide +kernel
  have hkey : (registry.step (.markApplied id "lora" none)).2.isRefusal = false := by
    decide +kernel
  have hlate : ∀ op ∈ [Op.markApplied id "lora" none, .abort id ⟨6, 0⟩],
      op.target? = some id ∧ (ended.step op).2.isRefusal = true := by
    decide +kernel
  have hstored : (ended.get? id).map (fun t => (t.isActive, t.summary.pending)) =
      some (false, 1) := by
    decide +kernel
  obtain ⟨t, hget, hfields⟩ := Option.map_eq_some_iff.mp hstored
  obtain ⟨hended, hpending⟩ := Prod.mk.inj hfields
  refine ⟨⟨hother, hunchanged _ rfl hother⟩, hkey, fun op hop => ?_, t, hpending,
    hcompleted t _ hget hended⟩
  obtain ⟨htarget, hrefusal⟩ := hlate op hop
  exact ⟨hrefusal, hunchangedEnded op htarget hrefusal⟩

end RadioAdmin.Registry
