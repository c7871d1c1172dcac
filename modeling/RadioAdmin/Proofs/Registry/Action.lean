import RadioAdmin.Proofs.Registry.Calls

/-!
# Operations on one transaction

An operation that names a transaction reads and writes no other one. What is stored under the
identifier decides on the answer and on what is stored next: without a transaction, or with one
that has ended, the operation is declined and stores what it has found.
-/
namespace RadioAdmin.Registry

/-- What can be asked of one transaction. -/
inductive Action where
  | register (request : ChangeRequest)
  | mark (key : String) (resolution : Resolution)
  | beginSent
  | commitSent
  | complete (now : Instant)
  | abort (now : Instant)

namespace Action

/-- The operation that asks it of the transaction with an identifier. -/
def on (id : TransactionId) : Action → Op
  | .register request => .register id request
  | .mark key resolution => resolution.mark id key
  | .beginSent => .markBeginSent id
  | .commitSent => .markCommitSent id
  | .complete now => .complete id now
  | .abort now => .abort id now

/-- The answer that declines an action. Only a registration and a completion tell the reason. -/
def declined (error : RegistryError) : Action → Answer
  | .register _ | .complete _ => .refused error
  | _ => .done false

/-- Whether a transaction takes an action. One that has ended can be completed again, and takes
nothing else. -/
def isTakenBy (t : Transaction) : Action → Bool
  | .complete _ => true
  | _ => t.isActive

/-- What an action makes of a transaction that takes it, and its answer. -/
def perform (t : Transaction) : Action → Transaction × Answer
  | .register request =>
    let change := request.toChange (initialStatus request)
    ({ t with changes := t.changes ++ [change] }, .registered change)
  | .mark key resolution =>
    (resolved key resolution.resolve t, .done (t.resolveFirst? key resolution.resolve).isSome)
  | .beginSent => ({ t with beginSent := true }, .done true)
  | .commitSent => ({ t with commitSent := true }, .done true)
  | .complete now => (t.finish now, .completed (t.finish now).summary)
  | .abort now => ((t.failPending abortMessage).finish now, .done true)

/-- What an action makes of the transaction that is stored under an identifier, and its answer. -/
def act (id : TransactionId) (t : Transaction) (action : Action) : Transaction × Answer :=
  if action.isTakenBy t then action.perform t else (t, action.declined (.inactive id))

/-- How an action is answered, by what is stored under the identifier. -/
def answer (id : TransactionId) (stored : Option Transaction) (action : Action) : Answer :=
  match stored with
  | none => action.declined (.notFound id)
  | some t => (action.act id t).2

theorem act_of_taken (id : TransactionId) (action : Action) {t : Transaction}
    (h : action.isTakenBy t = true) : action.act id t = action.perform t := if_pos h

theorem act_of_not_taken (id : TransactionId) (action : Action) {t : Transaction}
    (h : action.isTakenBy t = false) : action.act id t = (t, action.declined (.inactive id)) :=
  if_neg (by rw [h]; decide)

end Action

/-- The operations that name a transaction are those that ask an action of it. -/
theorem exists_action {op : Op} {id : TransactionId} (h : op.target? = some id) :
    ∃ action : Action, op = action.on id := by
  cases op with
  | begin node now => cases h
  | register target request =>
    obtain rfl := Option.some.inj h
    exact ⟨.register request, rfl⟩
  | markApplied target key packet =>
    obtain rfl := Option.some.inj h
    exact ⟨.mark key (.applied packet), rfl⟩
  | markFailed target key message =>
    obtain rfl := Option.some.inj h
    exact ⟨.mark key (.failed message), rfl⟩
  | markBeginSent target =>
    obtain rfl := Option.some.inj h
    exact ⟨.beginSent, rfl⟩
  | markCommitSent target =>
    obtain rfl := Option.some.inj h
    exact ⟨.commitSent, rfl⟩
  | complete target now =>
    obtain rfl := Option.some.inj h
    exact ⟨.complete now, rfl⟩
  | abort target now =>
    obtain rfl := Option.some.inj h
    exact ⟨.abort now, rfl⟩
  | cleanupOld age now => cases h
  | cleanupEndedBefore cutoff => cases h

variable {registry : Registry} {id : TransactionId} {t : Transaction}

/-- A change counts by what it does to the transaction that is stored. -/
theorem update_congr {change other : Transaction → Transaction}
    (hget : registry.get? id = some t) (hsame : change t = other t) :
    registry.update id change = registry.update id other :=
  congrArg (Registry.mk · registry.sequence) (Fields.modify_congr hget hsame)

theorem update_eq_self {change : Transaction → Transaction} (hget : registry.get? id = some t)
    (hsame : change t = t) : registry.update id change = registry := by
  rw [update, Fields.modify_eq_self hget hsame]

theorem update_of_none (change : Transaction → Transaction) (hget : registry.get? id = none) :
    registry.update id change = registry := by
  rw [update, Fields.modify_of_get?_eq_none change hget]

theorem update_update (registry : Registry) (id : TransactionId)
    (first second : Transaction → Transaction) :
    (registry.update id first).update id second =
      registry.update id fun t => second (first t) := by
  rw [update, update, Fields.modify_modify, update]

theorem update_comm (registry : Registry) {id other : TransactionId} (h : id ≠ other)
    (first second : Transaction → Transaction) :
    (registry.update id first).update other second =
      (registry.update other second).update id first := by
  have htext : id.text ≠ other.text := fun he => h (TransactionId.eq_of_text he)
  simp only [update]
  rw [Fields.modify_comm _ htext]

theorem active_of_get? (hget : registry.get? id = some t) (hactive : t.isActive = true) :
    registry.active id = .ok t := active_eq_ok_iff.mpr ⟨hget, hactive⟩

theorem active_of_none (hget : registry.get? id = none) :
    registry.active id = .error (.notFound id) := by
  rw [active, hget]

theorem changeActive_of_active (change : Transaction → Transaction)
    (h : registry.active id = .ok t) :
    registry.changeActive id change = (registry.update id change, true) := by
  rw [changeActive, h]

theorem changeActive_of_error (change : Transaction → Transaction) {error : RegistryError}
    (h : registry.active id = .error error) : registry.changeActive id change = (registry, false) := by
  rw [changeActive, h]

/-- What is refused by the guard of the active transactions is declined. -/
theorem step_on_of_error {action : Action} {error : RegistryError}
    (hcomplete : ∀ now, action ≠ .complete now) (h : registry.active id = .error error) :
    registry.step (action.on id) = (registry, action.declined error) := by
  cases action with
  | register request => rw [Action.on, step, register_of_error request h]; rfl
  | mark key resolution => rw [Action.on, step_mark, mark_of_error key _ h]; rfl
  | beginSent => rw [Action.on, step, markBeginSent, changeActive_of_error _ h]; rfl
  | commitSent => rw [Action.on, step, markCommitSent, changeActive_of_error _ h]; rfl
  | complete now => exact absurd rfl (hcomplete now)
  | abort now => rw [Action.on, step, abort, changeActive_of_error _ h]; rfl

/-- Without a transaction an action is declined as not found. -/
theorem step_on_of_none (action : Action) (hget : registry.get? id = none) :
    registry.step (action.on id) = (registry, action.declined (.notFound id)) := by
  cases action with
  | complete now => rw [Action.on, step, complete, hget]; rfl
  | _ => exact step_on_of_error (fun _ h => by cases h) (active_of_none hget)

/-- A transaction that does not take an action declines it as inactive. -/
theorem step_on_of_not_taken (action : Action) (hget : registry.get? id = some t)
    (h : action.isTakenBy t = false) :
    registry.step (action.on id) = (registry, action.declined (.inactive id)) := by
  cases action with
  | complete now => cases h
  | _ => exact step_on_of_error (fun _ h => by cases h) (active_of_inactive hget h)

theorem step_on_of_taken (action : Action) (hget : registry.get? id = some t)
    (h : action.isTakenBy t = true) :
    registry.step (action.on id) =
      (registry.update id fun t => (action.perform t).1, (action.perform t).2) := by
  cases action with
  | register request =>
    rw [Action.on, step, register_of_active request (active_of_get? hget h)]
    rfl
  | mark key resolution =>
    rw [Action.on, step_mark, mark_of_active key _ (active_of_get? hget h)]
    simp only [Action.perform]
    cases hresolved : t.resolveFirst? key resolution.resolve with
    | some u =>
      have hsame : u = resolved key resolution.resolve t := by rw [resolved, hresolved]; rfl
      exact congrArg (·, Answer.done true) (update_congr hget hsame)
    | none =>
      have hsame : resolved key resolution.resolve t = t := by rw [resolved, hresolved]; rfl
      exact congrArg (·, Answer.done false) (update_eq_self hget hsame).symm
  | beginSent =>
    rw [Action.on, step, markBeginSent, changeActive_of_active _ (active_of_get? hget h)]
    rfl
  | commitSent =>
    rw [Action.on, step, markCommitSent, changeActive_of_active _ (active_of_get? hget h)]
    rfl
  | complete now =>
    rw [Action.on, step, complete, hget]
    rfl
  | abort now =>
    rw [Action.on, step, abort, changeActive_of_active _ (active_of_get? hget h)]
    rfl

/-- An action changes the transaction that is stored under its identifier and no other one, and it
is answered by what is stored there. -/
theorem step_on (registry : Registry) (id : TransactionId) (action : Action) :
    registry.step (action.on id) =
      (registry.update id fun t => (action.act id t).1, action.answer id (registry.get? id)) := by
  cases hget : registry.get? id with
  | none => rw [step_on_of_none action hget, update_of_none _ hget, Action.answer]
  | some t =>
    rw [Action.answer]
    cases htaken : action.isTakenBy t with
    | true =>
      have hact := Action.act_of_taken id action htaken
      have hupdate : registry.update id (fun t => (action.act id t).1) =
          registry.update id fun t => (action.perform t).1 := update_congr hget (by rw [hact])
      rw [step_on_of_taken action hget htaken, hact, hupdate]
    | false =>
      have hact := Action.act_of_not_taken id action htaken
      have hsame : (action.act id t).1 = t := by rw [hact]
      rw [step_on_of_not_taken action hget htaken, hact, update_eq_self hget hsame]

end RadioAdmin.Registry
