import RadioAdmin.Proofs.Registry.Calls

/-!
# The ledger of a transaction

The counts of a summary are taken from the changes as they are. They are also what the answers of
the run add up to: every registration adds a change, every successful mark moves one from pending
to applied or failed, and an abort moves all that are left to failed.
-/
namespace RadioAdmin

namespace Transaction

variable {t u : Transaction}

theorem countOf_append (t : Transaction) (change : Change) (status : ChangeStatus) :
    { t with changes := t.changes ++ [change] }.countOf status =
      t.countOf status + if change.status = status then 1 else 0 := by
  rw [countOf, List.countP_append, List.countP_singleton, countOf]
  simp only [decide_eq_true_eq]

theorem length_resolveFirst? {key : String} {resolve : Change → Change}
    (h : t.resolveFirst? key resolve = some u) : u.changes.length = t.changes.length := by
  obtain ⟨changes, hreplace, rfl⟩ := Option.map_eq_some_iff.mp h
  obtain ⟨front, change, back, hbefore, -, -, rfl⟩ := exists_of_replaceFirst? hreplace
  rw [hbefore, List.length_append, List.length_append, List.length_cons, List.length_cons]

/-- A resolution moves one change to its status. -/
theorem countOf_resolveFirst? {key : String} {resolution : Resolution}
    (h : t.resolveFirst? key resolution.resolve = some u) (status : ChangeStatus)
    (hne : status ≠ .pending) :
    u.countOf status = t.countOf status + if resolution.status = status then 1 else 0 := by
  obtain ⟨changes, hreplace, rfl⟩ := Option.map_eq_some_iff.mp h
  obtain ⟨front, change, back, hbefore, -, hchange, rfl⟩ := exists_of_replaceFirst? hreplace
  have hstatus : change.status ≠ status := by
    rw [(Change.isPendingFor_iff.mp hchange).1]
    exact hne.symm
  rw [countOf, countOf, hbefore, List.countP_append, List.countP_append, List.countP_cons,
    List.countP_cons, Resolution.status_resolve]
  simp only [decide_eq_true_eq, if_neg hstatus]
  omega

theorem countOf_finish (t : Transaction) (now : Instant) (status : ChangeStatus) :
    (t.finish now).countOf status = t.countOf status := rfl

theorem countOf_failPending (t : Transaction) (message : String) (status : ChangeStatus)
    (hne : status ≠ .pending) (hfailed : status ≠ .failed) :
    (t.failPending message).countOf status = t.countOf status := by
  rw [countOf, failPending, List.countP_map, countOf]
  refine List.countP_congr fun change _ => ?_
  rw [Function.comp_apply]
  split
  · rename_i hpending
    rw [Change.isPending_iff] at hpending
    simp [Change.fail, hpending, hne.symm, hfailed.symm]
  · rfl

theorem countOf_failPending_failed (t : Transaction) (message : String) :
    (t.failPending message).countOf .failed = t.countOf .failed + t.countOf .pending := by
  rw [countOf, countOf, countOf, failPending]
  induction t.changes with
  | nil => rfl
  | cons change rest ih =>
    rw [List.map_cons, List.countP_cons, List.countP_cons, List.countP_cons, ih]
    cases hs : change.status <;> simp [Change.isPending, Change.fail, hs] <;> omega

theorem length_pending (t : Transaction) : t.pending.length = t.countOf .pending :=
  List.countP_eq_length_filter.symm

/-- Every change has one of the four statuses. -/
theorem countOf_add (t : Transaction) :
    t.countOf .applied + t.countOf .skipped + t.countOf .failed + t.countOf .pending =
      t.changes.length := by
  rw [countOf, countOf, countOf, countOf]
  induction t.changes with
  | nil => rfl
  | cons change rest ih =>
    rw [List.countP_cons, List.countP_cons, List.countP_cons, List.countP_cons, List.length_cons,
      ← ih]
    cases hs : change.status <;> simp <;> omega

end Transaction

namespace Registry

/-- Whether a call has registered a change. -/
def Call.registers (call : Call) : Bool := call.registered?.isSome

/-- Whether a call has registered a change that is skipped. -/
def Call.skips (call : Call) : Bool := call.registered?.any fun change => change.status = .skipped

/-- Whether a call has marked a change as applied. -/
def Call.applies (call : Call) : Bool :=
  match call.op, call.answer with
  | .markApplied _ _ _, .done success => success
  | _, _ => false

/-- Whether a call has marked a change as failed. -/
def Call.fails (call : Call) : Bool :=
  match call.op, call.answer with
  | .markFailed _ _ _, .done success => success
  | _, _ => false

/-- Whether a call has aborted a transaction. -/
def Call.aborts (call : Call) : Bool :=
  match call.op, call.answer with
  | .abort _ _, .done success => success
  | _, _ => false

/-- How many changes were pending just before the call that aborted the transaction; none if no
call did. -/
def pendingAtAbort (id : TransactionId) (calls : List Call) : Nat :=
  ((calls.find? Call.aborts).map fun call => (call.before.pendingChanges id).length).getD 0

/-- What the calls on a transaction add up to. -/
structure Tally (id : TransactionId) (calls : List Call) (t : Transaction) : Prop where
  total : t.changes.length = calls.countP Call.registers
  skipped : t.countOf .skipped = calls.countP Call.skips
  applied : t.countOf .applied = calls.countP Call.applies
  failed : t.countOf .failed = calls.countP Call.fails + pendingAtAbort id calls
  unaborted : t.isActive = true → calls.find? Call.aborts = none

variable {id : TransactionId} {calls : List Call} {t u : Transaction}

theorem countP_concat (p : Call → Bool) (calls : List Call) (call : Call) :
    (calls ++ [call]).countP p = calls.countP p + if p call then 1 else 0 := by
  rw [List.countP_append, List.countP_singleton]

theorem pendingAtAbort_concat (id : TransactionId) (calls : List Call) {call : Call}
    (h : call.aborts = false) :
    pendingAtAbort id (calls ++ [call]) = pendingAtAbort id calls := by
  rw [pendingAtAbort, List.find?_append, List.find?_singleton, h, pendingAtAbort]
  simp

theorem tally_start (id : TransactionId) (node : NodeId) (now : Instant) :
    Tally id [] (.start id node now) :=
  ⟨rfl, rfl, rfl, rfl, fun _ => rfl⟩

theorem not_done_of_refusal {call : Call} (h : call.answer.isRefusal = true) :
    call.applies = false ∧ call.fails = false ∧ call.aborts = false := by
  obtain ⟨before, op, answer⟩ := call
  cases answer with
  | done success =>
    obtain rfl : success = false := by simpa [Answer.isRefusal] using h
    cases op <;> exact ⟨rfl, rfl, rfl⟩
  | refused error => cases op <;> exact ⟨rfl, rfl, rfl⟩
  | _ => cases h

/-- A call that changes no change adds nothing. -/
theorem Tally.of_unchanged (h : Tally id calls t) {call : Call}
    (hregistered : call.registered? = none)
    (hdone : call.applies = false ∧ call.fails = false ∧ call.aborts = false)
    (hchanges : u.changes = t.changes) (hactive : u.isActive = true → t.isActive = true) :
    Tally id (calls ++ [call]) u := by
  obtain ⟨happlies, hfails, haborts⟩ := hdone
  have hcount : ∀ status, u.countOf status = t.countOf status := by
    intro status
    rw [Transaction.countOf, hchanges, Transaction.countOf]
  constructor
  · rw [countP_concat, hchanges, h.total, Call.registers, hregistered]
    rfl
  · rw [countP_concat, hcount, h.skipped, Call.skips, hregistered]
    rfl
  · rw [countP_concat, hcount, h.applied, happlies]
    rfl
  · rw [countP_concat, hcount, h.failed, hfails, pendingAtAbort_concat id calls haborts]
    rfl
  · intro hu
    rw [List.find?_append, h.unaborted (hactive hu), List.find?_singleton, haborts]
    rfl

theorem Tally.registered (h : Tally id calls t) (before : Registry) (target : TransactionId)
    (request : ChangeRequest) {change : Change}
    (hnew : change.status = .pending ∨ change.status = .skipped) :
    Tally id (calls ++ [⟨before, .register target request, .registered change⟩])
      { t with changes := t.changes ++ [change] } := by
  have hother : ∀ status, status ≠ .pending → status ≠ .skipped → ¬ change.status = status := by
    rintro status hpending hskipped rfl
    exact hnew.elim hpending hskipped
  constructor
  · rw [countP_concat, List.length_append, h.total]
    rfl
  · rw [countP_concat, Transaction.countOf_append, h.skipped]
    simp [Call.skips, Call.registered?]
  · rw [countP_concat, Transaction.countOf_append, h.applied,
      if_neg (hother _ (by decide) (by decide))]
    rfl
  · rw [countP_concat, Transaction.countOf_append, h.failed, pendingAtAbort_concat id calls rfl,
      if_neg (hother _ (by decide) (by decide))]
    rfl
  · intro hactive
    rw [List.find?_append, h.unaborted hactive]
    rfl

theorem Tally.marked (h : Tally id calls t) (before : Registry) (target : TransactionId)
    (key : String) (resolution : Resolution) (hactive : t.isActive = true)
    (hmarked : t.resolveFirst? key resolution.resolve = some u) :
    Tally id (calls ++ [⟨before, resolution.mark target key, .done true⟩]) u := by
  have haborts : (Call.mk before (resolution.mark target key) (.done true)).aborts = false := by
    cases resolution <;> rfl
  have hcount := Transaction.countOf_resolveFirst? hmarked
  have hlength := Transaction.length_resolveFirst? hmarked
  constructor
  · rw [countP_concat, hlength, h.total]
    rfl
  · rw [countP_concat, hcount .skipped (by decide), h.skipped]
    cases resolution <;> rfl
  · rw [countP_concat, hcount .applied (by decide), h.applied]
    cases resolution <;> rfl
  · rw [countP_concat, hcount .failed (by decide), h.failed, pendingAtAbort_concat id calls haborts]
    cases resolution
    · rfl
    · exact Nat.add_right_comm ..
  · intro _
    rw [List.find?_append, h.unaborted hactive, List.find?_singleton, haborts]
    rfl

/-- An abort finds the transaction active, and so has been the first one. -/
theorem Tally.aborted (h : Tally id calls t) {before : Registry} (now : Instant)
    (hget : before.get? id = some t) (hactive : t.isActive = true) :
    Tally id (calls ++ [⟨before, .abort id now, .done true⟩])
      ((t.failPending abortMessage).finish now) := by
  have hnone := h.unaborted hactive
  have hpending : pendingAtAbort id (calls ++ [⟨before, .abort id now, .done true⟩]) =
      t.countOf .pending := by
    rw [pendingAtAbort, List.find?_append, hnone, ← Transaction.length_pending]
    simp [Call.aborts, pendingChanges, hget]
  have hbefore : pendingAtAbort id calls = 0 := by rw [pendingAtAbort, hnone]; rfl
  constructor
  · rw [countP_concat]
    exact (List.length_map _).trans h.total
  · rw [countP_concat, Transaction.countOf_finish,
      Transaction.countOf_failPending _ _ _ (by decide) (by decide), h.skipped]
    rfl
  · rw [countP_concat, Transaction.countOf_finish,
      Transaction.countOf_failPending _ _ _ (by decide) (by decide), h.applied]
    rfl
  · rw [countP_concat, Transaction.countOf_finish, Transaction.countOf_failPending_failed, h.failed,
      hbefore, hpending]
    rfl
  · intro hu
    cases hu

/-- The ledger of a stored transaction after every run. -/
theorem tally_after (ops : List Op) (id : TransactionId) (t : Transaction)
    (hget : (empty.after ops).get? id = some t) : Tally id (callsOn id (empty.calls ops)) t := by
  refine calls_induction (motive := Tally id) (tally_start id) ?_ ops t hget
  intro calls registry op answer t u h hget _ houtcome
  cases houtcome with
  | refused hrefusal =>
    exact h.of_unchanged (registered?_of_refusal hrefusal) (not_done_of_refusal hrefusal) rfl
      fun hactive => hactive
  | registered request _ =>
    exact h.registered registry id request (initialStatus_cases request)
  | marked key resolution hactive hmarked =>
    exact h.marked registry id key resolution hactive hmarked
  | beginSent _ => exact h.of_unchanged rfl ⟨rfl, rfl, rfl⟩ rfl fun hactive => hactive
  | commitSent _ => exact h.of_unchanged rfl ⟨rfl, rfl, rfl⟩ rfl fun hactive => hactive
  | completed now =>
    refine h.of_unchanged rfl ⟨rfl, rfl, rfl⟩ rfl fun hactive => ?_
    cases hactive
  | aborted now hactive => exact h.aborted now hget hactive

theorem timed_after {ops : List Op} (hget : (empty.after ops).get? id = some t) : t.Timed := by
  induction ops using List.reverseRecOn generalizing t with
  | nil => cases hget
  | append_singleton ops op ih =>
    rw [after_concat] at hget
    rcases exists_of_get?_step (distinct_after ops) hget with
      ⟨node, now, -, -, rfl⟩ | ⟨old, hold, hu⟩
    · intro hinactive
      cases hinactive
    · exact (Op.effect_spec (ih hold) hu).2

/-- What is stored of an ended transaction stays what it is for as long as no call begins another
one in its place. -/
theorem eq_of_ended {registry : Registry} (hdistinct : Fields.Distinct registry.transactions)
    (htimed : t.Timed) (hended : t.isActive = false)
    (hstored : ∀ u, registry.get? id = some u → u = t) {ops : List Op}
    (hbegins : ∀ call ∈ registry.calls ops, call.begins id = false)
    (hlater : (registry.after ops).get? id = some u) : u = t := by
  induction ops generalizing registry with
  | nil => exact hstored u hlater
  | cons op rest ih =>
    obtain ⟨hop, hrest⟩ := List.forall_mem_cons.mp hbegins
    refine ih (distinct_step hdistinct op) (fun next hnext => ?_) hrest hlater
    have hnew : op.newId? registry ≠ some id := by
      intro hnew
      rw [(begins_iff registry op id).mpr hnew] at hop
      cases hop
    rw [get?_step hdistinct hnew] at hnext
    obtain ⟨old, hold, heffect⟩ := Option.bind_eq_some_iff.mp hnext
    obtain rfl := hstored old hold
    exact (Op.effect_spec htimed heffect).1.ended hended

/-- The completion of an ended transaction reports on it once more, and that is all. -/
theorem step_complete_of_ended {registry : Registry} (hget : registry.get? id = some t)
    (htimed : t.Timed) (hended : t.isActive = false) (now : Instant) :
    registry.step (.complete id now) = (registry, .completed t.summary) := by
  have hfinish : t.finish now = t := Transaction.finish_of_ended now htimed hended
  have hupdate : registry.update id (·.finish now) = registry := by
    rw [update, Fields.modify_eq_self hget hfinish]
  rw [step, complete, hget]
  show (registry.update id (·.finish now), Answer.completed (t.finish now).summary) = _
  rw [hfinish, hupdate]

end Registry

end RadioAdmin
