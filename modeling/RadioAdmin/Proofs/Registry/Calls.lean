import Mathlib.Data.List.DropRight
import RadioAdmin.Proofs.Registry.Lifecycle
import RadioAdmin.Proofs.Transaction.Resolution

/-!
# The calls on one transaction

A run answers every call. The calls on a transaction are those that name it behind the begin
that gave out its identifier last. What such a call makes of the transaction goes with its answer,
and no other call changes a transaction that stays stored. So what a run has told about a
transaction and what has become of it can be compared call by call.
-/
namespace RadioAdmin

/-- The operation that resolves the first pending change of a key in this way. -/
def Resolution.mark (id : TransactionId) (key : String) : Resolution → Registry.Op
  | .applied packet => .markApplied id key packet
  | .failed message => .markFailed id key message

namespace Registry

/-- An operation of a run with the registry that it met and the answer that it got. -/
structure Call where
  before : Registry
  op : Op
  answer : Answer

/-- The calls of a run, in order. -/
def calls (registry : Registry) : List Op → List Call
  | [] => []
  | op :: rest => ⟨registry, op, (registry.step op).2⟩ :: (registry.step op).1.calls rest

/-- The transaction that an operation names. -/
def Op.target? : Op → Option TransactionId
  | .register id _ | .markApplied id _ _ | .markFailed id _ _ | .markBeginSent id
  | .markCommitSent id | .complete id _ | .abort id _ => some id
  | .begin _ _ | .cleanupOld _ _ | .cleanupEndedBefore _ => none

/-- Whether a call has begun a transaction under an identifier. -/
def Call.begins (id : TransactionId) (call : Call) : Bool :=
  match call.answer with
  | .begun transaction => transaction.id = id
  | _ => false

/-- The calls that name a transaction since it was begun. -/
def callsOn (id : TransactionId) (calls : List Call) : List Call :=
  (calls.rtakeWhile fun call => !call.begins id).filter fun call => call.op.target? = some id

/-- Whether an answer declines what was asked for. -/
def Answer.isRefusal : Answer → Bool
  | .done success => !success
  | .refused _ => true
  | _ => false

/-- The change that a call has registered. -/
def Call.registered? (call : Call) : Option Change :=
  match call.answer with
  | .registered change => some change
  | _ => none

theorem answers_calls (registry : Registry) (ops : List Op) :
    (registry.calls ops).map Call.answer = (registry.run ops).2 := by
  induction ops generalizing registry with
  | nil => rfl
  | cons op rest ih => rw [calls, List.map_cons, ih, run]

theorem calls_append (registry : Registry) (front back : List Op) :
    registry.calls (front ++ back) = registry.calls front ++ (registry.after front).calls back := by
  induction front generalizing registry with
  | nil => rfl
  | cons op rest ih => rw [List.cons_append, calls, ih, calls, after_cons, List.cons_append]

theorem after_concat (registry : Registry) (ops : List Op) (op : Op) :
    registry.after (ops ++ [op]) = ((registry.after ops).step op).1 := after_append ..

theorem calls_concat (registry : Registry) (ops : List Op) (op : Op) :
    registry.calls (ops ++ [op]) =
      registry.calls ops ++ [⟨registry.after ops, op, ((registry.after ops).step op).2⟩] :=
  calls_append ..

theorem callsOn_concat (id : TransactionId) (calls : List Call) (call : Call) :
    callsOn id (calls ++ [call]) =
      if call.begins id then []
      else if call.op.target? = some id then callsOn id calls ++ [call] else callsOn id calls := by
  rw [callsOn, List.rtakeWhile_concat]
  cases hbegins : call.begins id with
  | true => rfl
  | false =>
    have hfilter : (if call.op.target? = some id then callsOn id calls ++ [call]
        else callsOn id calls) =
        ((calls.rtakeWhile fun call => !call.begins id) ++ [call]).filter
          fun call => call.op.target? = some id := by
      rw [List.filter_append, List.filter_singleton]
      by_cases ht : call.op.target? = some id <;> simp [ht, callsOn]
    exact hfilter.symm

theorem registered?_of_refusal {call : Call} (h : call.answer.isRefusal = true) :
    call.registered? = none := by
  obtain ⟨before, op, answer⟩ := call
  cases answer with
  | registered change => cases h
  | _ => rfl

/-- A call on a stored transaction: what it asks for, what it is answered and what becomes of
the transaction. -/
inductive Outcome (id : TransactionId) (t : Transaction) : Op → Answer → Transaction → Prop
  | refused {op : Op} {answer : Answer} (h : answer.isRefusal = true) : Outcome id t op answer t
  | registered (request : ChangeRequest) (hactive : t.isActive = true) :
    Outcome id t (.register id request) (.registered (request.toChange (initialStatus request)))
      { t with changes := t.changes ++ [request.toChange (initialStatus request)] }
  | marked {u : Transaction} (key : String) (resolution : Resolution) (hactive : t.isActive = true)
    (h : t.resolveFirst? key resolution.resolve = some u) :
    Outcome id t (resolution.mark id key) (.done true) u
  | beginSent (hactive : t.isActive = true) :
    Outcome id t (.markBeginSent id) (.done true) { t with beginSent := true }
  | commitSent (hactive : t.isActive = true) :
    Outcome id t (.markCommitSent id) (.done true) { t with commitSent := true }
  | completed (now : Instant) :
    Outcome id t (.complete id now) (.completed (t.finish now).summary) (t.finish now)
  | aborted (now : Instant) (hactive : t.isActive = true) :
    Outcome id t (.abort id now) (.done true) ((t.failPending abortMessage).finish now)

variable {registry : Registry} {id : TransactionId} {t u : Transaction}

theorem active_of_inactive (hget : registry.get? id = some t) (hinactive : t.isActive = false) :
    registry.active id = .error (.inactive id) := by
  rw [active, hget]
  simp [hinactive]

theorem step_mark (registry : Registry) (id : TransactionId) (key : String)
    (resolution : Resolution) :
    registry.step (resolution.mark id key) =
      ((registry.mark id key resolution.resolve).1,
        .done (registry.mark id key resolution.resolve).2) := by
  cases resolution <;> rfl

theorem mark_of_active (key : String) (resolve : Change → Change)
    (h : registry.active id = .ok t) :
    registry.mark id key resolve =
      match t.resolveFirst? key resolve with
      | some u => (registry.update id fun _ => u, true)
      | none => (registry, false) := by
  cases hr : t.resolveFirst? key resolve <;> simp only [mark, h, hr]

theorem mark_of_error (key : String) (resolve : Change → Change) {error : RegistryError}
    (h : registry.active id = .error error) : registry.mark id key resolve = (registry, false) := by
  rw [mark, h]

theorem get?_update_self (change : Transaction → Transaction) (hget : registry.get? id = some t) :
    (registry.update id change).get? id = some (change t) := by
  rw [get?_update, if_pos rfl, hget, Option.map_some]

/-- A change of an active transaction in place is made and answered, or declined. -/
theorem outcome_changeActive {op : Op} {change : Transaction → Transaction}
    (hget : registry.get? id = some t)
    (hstep : registry.step op =
      ((registry.changeActive id change).1, .done (registry.changeActive id change).2))
    (houtcome : t.isActive = true → Outcome id t op (.done true) (change t)) :
    ∃ u, (registry.step op).1.get? id = some u ∧ Outcome id t op (registry.step op).2 u := by
  rw [hstep, changeActive]
  cases hactive : t.isActive with
  | true =>
    rw [active_eq_ok_iff.mpr ⟨hget, hactive⟩]
    exact ⟨_, get?_update_self change hget, houtcome hactive⟩
  | false =>
    rw [active_of_inactive hget hactive]
    exact ⟨t, hget, .refused rfl⟩

theorem outcome_mark (key : String) (resolution : Resolution) (hget : registry.get? id = some t) :
    ∃ u, (registry.step (resolution.mark id key)).1.get? id = some u ∧
      Outcome id t (resolution.mark id key) (registry.step (resolution.mark id key)).2 u := by
  rw [step_mark]
  cases hactive : t.isActive with
  | true =>
    rw [mark_of_active key _ (active_eq_ok_iff.mpr ⟨hget, hactive⟩)]
    cases hr : t.resolveFirst? key resolution.resolve with
    | some u => exact ⟨u, get?_update_self _ hget, .marked key resolution hactive hr⟩
    | none => exact ⟨t, hget, .refused rfl⟩
  | false =>
    rw [mark_of_error key _ (active_of_inactive hget hactive)]
    exact ⟨t, hget, .refused rfl⟩

/-- A call keeps the transaction that it names, and has one of the outcomes on it. -/
theorem outcome_step {op : Op} (htarget : op.target? = some id)
    (hget : registry.get? id = some t) :
    ∃ u, (registry.step op).1.get? id = some u ∧ Outcome id t op (registry.step op).2 u := by
  cases op with
  | begin node now => cases htarget
  | register target request =>
    obtain rfl := Option.some.inj htarget
    rw [step]
    cases hactive : t.isActive with
    | true =>
      rw [register_of_active request (active_eq_ok_iff.mpr ⟨hget, hactive⟩)]
      exact ⟨_, get?_update_self _ hget, .registered request hactive⟩
    | false =>
      rw [register_of_error request (active_of_inactive hget hactive)]
      exact ⟨t, hget, .refused rfl⟩
  | markApplied target key packet =>
    obtain rfl := Option.some.inj htarget
    exact outcome_mark key (.applied packet) hget
  | markFailed target key message =>
    obtain rfl := Option.some.inj htarget
    exact outcome_mark key (.failed message) hget
  | markBeginSent target =>
    obtain rfl := Option.some.inj htarget
    exact outcome_changeActive hget rfl fun hactive => .beginSent hactive
  | markCommitSent target =>
    obtain rfl := Option.some.inj htarget
    exact outcome_changeActive hget rfl fun hactive => .commitSent hactive
  | complete target now =>
    obtain rfl := Option.some.inj htarget
    rw [step, complete, hget]
    exact ⟨_, get?_update_self _ hget, .completed now⟩
  | abort target now =>
    obtain rfl := Option.some.inj htarget
    exact outcome_changeActive hget rfl fun hactive => .aborted now hactive
  | cleanupOld age now => cases htarget
  | cleanupEndedBefore cutoff => cases htarget

/-- A call that does not name a transaction leaves it as it is or takes it out. -/
theorem eq_of_effect {op : Op} (htarget : op.target? ≠ some id) (h : op.effect id t = some u) :
    u = t := by
  have hchange : ∀ target change, some target ≠ some id →
      some (changeMeant target id change t) = some u → u = t := by
    intro target change hne hu
    have ht : target ≠ id := fun he => hne (congrArg some he)
    rw [changeMeant, if_neg fun hmeant => ht hmeant.1] at hu
    exact (Option.some.inj hu).symm
  cases op with
  | begin node now => exact (Option.some.inj h).symm
  | complete target now =>
    have ht : target ≠ id := fun he => htarget (congrArg some he)
    rw [Op.effect, if_neg ht] at h
    exact (Option.some.inj h).symm
  | cleanupOld age now =>
    rw [Op.effect] at h
    split at h
    · exact eq_of_unlessEnded h
    · exact (Option.some.inj h).symm
  | cleanupEndedBefore cutoff => exact eq_of_unlessEnded h
  | register target request => exact hchange _ _ htarget h
  | markApplied target key packet => exact hchange _ _ htarget h
  | markFailed target key message => exact hchange _ _ htarget h
  | markBeginSent target => exact hchange _ _ htarget h
  | markCommitSent target => exact hchange _ _ htarget h
  | abort target now => exact hchange _ _ htarget h

theorem begins_iff (registry : Registry) (op : Op) (id : TransactionId) :
    (Call.mk registry op (registry.step op).2).begins id = true ↔
      op.newId? registry = some id := by
  cases op with
  | begin node now => simp [Call.begins, step, begin, Transaction.start, Op.newId?]
  | register target request =>
    rw [Call.begins, step]
    cases registry.register target request <;> simp [Op.newId?]
  | complete target now =>
    rw [Call.begins, step]
    cases registry.complete target now <;> simp [Op.newId?]
  | _ => simp [Call.begins, step, Op.newId?]

theorem distinct_after (ops : List Op) : Fields.Distinct (empty.after ops).transactions := by
  induction ops using List.reverseRecOn with
  | nil => exact List.nodup_nil
  | append_singleton ops op ih =>
    rw [after_concat]
    exact distinct_step ih op

/-- What a run has told of a transaction and what is stored of it: to relate the two, it is enough
to start with a new transaction and no call, and to go on by the outcome of one call. -/
theorem calls_induction {id : TransactionId} {motive : List Call → Transaction → Prop}
    (begun : ∀ node now, motive [] (.start id node now))
    (call : ∀ calls registry op answer t u, motive calls t → registry.get? id = some t →
      op.target? = some id → Outcome id t op answer u →
      motive (calls ++ [⟨registry, op, answer⟩]) u)
    (ops : List Op) (t : Transaction) (hget : (empty.after ops).get? id = some t) :
    motive (callsOn id (empty.calls ops)) t := by
  induction ops using List.reverseRecOn generalizing t with
  | nil => cases hget
  | append_singleton ops op ih =>
    rw [after_concat] at hget
    rw [calls_concat, callsOn_concat]
    have hdistinct := distinct_after ops
    by_cases hnew : op.newId? (empty.after ops) = some id
    · rw [if_pos ((begins_iff ..).mpr hnew)]
      cases op with
      | begin node now =>
        have hid := Option.some.inj hnew
        rw [get?_step_begin, if_pos hid] at hget
        obtain rfl := Option.some.inj hget
        exact begun node now
      | _ => cases hnew
    · rw [if_neg fun hbegins => hnew ((begins_iff ..).mp hbegins)]
      have heffect := hget
      rw [get?_step hdistinct hnew] at heffect
      obtain ⟨old, hold, heffect⟩ := Option.bind_eq_some_iff.mp heffect
      by_cases htarget : op.target? = some id
      · obtain ⟨u, hu, houtcome⟩ := outcome_step htarget hold
        obtain rfl := Option.some.inj (hu.symm.trans hget)
        rw [if_pos htarget]
        exact call _ _ _ _ old u (ih old hold) hold htarget houtcome
      · obtain rfl := eq_of_effect htarget heffect
        rw [if_neg htarget]
        exact ih _ hold

end Registry

end RadioAdmin
