import RadioAdmin.Proofs.Registry.Ledger
import RadioAdmin.Proofs.Registry.Skip

/-!
# What the fields of a record say together

The status of a change, its error message and its packet are written by different operations, and
so are the flag and the time of the end of a transaction. They never contradict each other: a
change is resolved once, from pending, and a transaction gets its time when it is deactivated. A
change that is skipped keeps what it was skipped for.
-/
namespace RadioAdmin

/-- The fields of a change as its status has them. -/
structure Change.Coherent (change : Change) : Prop where
  unresolved : change.status = .pending ∨ change.status = .skipped →
    change.errorMessage = none ∧ change.packet = none
  applied : change.status = .applied → change.errorMessage = none
  failed : change.status = .failed →
    change.errorMessage.isSome = true ∧ change.packet = none
  skipped : change.status = .skipped → ∃ previous, change.previous = some previous ∧
    Compare.compareConfigs change.desired previous (some change.key) true = []

/-- A resolution turns the empty fields of a pending change into those of its own status. -/
theorem Resolution.coherent_resolve (resolution : Resolution) {change : Change}
    (h : change.Coherent) (hpending : change.status = .pending) :
    (resolution.resolve change).Coherent := by
  obtain ⟨herror, hpacket⟩ := h.unresolved (Or.inl hpending)
  cases resolution with
  | applied packet =>
    constructor
    · rintro (hs | hs) <;> cases hs
    · exact fun _ => herror
    · exact fun hs => by cases hs
    · exact fun hs => by cases hs
  | failed message =>
    constructor
    · rintro (hs | hs) <;> cases hs
    · exact fun hs => by cases hs
    · exact fun _ => ⟨rfl, hpacket⟩
    · exact fun hs => by cases hs

namespace Transaction

variable {t u : Transaction}

theorem coherent_resolveFirst? {key : String} {resolution : Resolution}
    (h : ∀ change ∈ t.changes, change.Coherent)
    (hresolved : t.resolveFirst? key resolution.resolve = some u) :
    ∀ change ∈ u.changes, change.Coherent := by
  obtain ⟨changes, hreplace, rfl⟩ := Option.map_eq_some_iff.mp hresolved
  obtain ⟨front, first, back, hbefore, -, hfirst, rfl⟩ := exists_of_replaceFirst? hreplace
  rw [hbefore, List.forall_mem_append, List.forall_mem_cons] at h
  obtain ⟨hfront, hfound, hback⟩ := h
  have hpending := (Change.isPendingFor_iff.mp hfirst).1
  exact List.forall_mem_append.mpr
    ⟨hfront, List.forall_mem_cons.mpr ⟨resolution.coherent_resolve hfound hpending, hback⟩⟩

/-- To fail what is pending is a resolution of each of these changes. -/
theorem coherent_failPending (message : String) (h : ∀ change ∈ t.changes, change.Coherent) :
    ∀ change ∈ (t.failPending message).changes, change.Coherent := by
  intro change hchange
  obtain ⟨old, hold, rfl⟩ := List.mem_map.mp hchange
  split
  · rename_i hpending
    rw [Change.isPending_iff] at hpending
    exact (Resolution.failed message).coherent_resolve (h old hold) hpending
  · exact h old hold

theorem ne_pending_of_mem_failPending {message : String} {change : Change}
    (h : change ∈ (t.failPending message).changes) : change.status ≠ .pending := by
  obtain ⟨old, -, rfl⟩ := List.mem_map.mp h
  split
  · exact fun hs => by cases hs
  · rename_i hresolved
    rwa [Change.isPending_iff] at hresolved

end Transaction

namespace Registry

/-- A new change is unresolved, and skipped only for a known value that meets what is desired. -/
theorem coherent_new (request : ChangeRequest) :
    (request.toChange (initialStatus request)).Coherent := by
  have hnew : initialStatus request = .pending ∨ initialStatus request = .skipped :=
    initialStatus_cases request
  constructor
  · exact fun _ => ⟨rfl, rfl⟩
  · exact fun _ => rfl
  · intro (hs : initialStatus request = .failed)
    rw [hs] at hnew
    rcases hnew with hnew | hnew <;> cases hnew
  · intro (hs : initialStatus request = .skipped)
    cases hprevious : request.previous with
    | none =>
      rw [initialStatus, hprevious] at hs
      cases hs
    | some previous =>
      exact ⟨previous, hprevious, ((initialStatus_eq_skipped_iff hprevious).mp hs).2⟩

/-- What the records of a transaction say after the calls on it. -/
structure Coherent (calls : List Call) (t : Transaction) : Prop where
  changes : ∀ change ∈ t.changes, change.Coherent
  active_iff : t.isActive = true ↔ t.endedAt = none
  aborted : (∃ call ∈ calls, call.aborts = true) →
    t.isActive = false ∧ ∀ change ∈ t.changes, change.status ≠ .pending

variable {calls : List Call} {t u : Transaction}

theorem coherent_start (id : TransactionId) (node : NodeId) (now : Instant) :
    Coherent [] (.start id node now) where
  changes _ h := by cases h
  active_iff := iff_of_true rfl rfl
  aborted h := by
    obtain ⟨call, hcall, -⟩ := h
    cases hcall

/-- An active transaction has not been aborted, and another call does not abort it. -/
theorem Coherent.not_aborted (h : Coherent calls t) (hactive : t.isActive = true) {call : Call}
    (haborts : call.aborts = false) : ¬ ∃ other ∈ calls ++ [call], other.aborts = true := by
  rintro ⟨other, hother, hdone⟩
  rcases List.mem_append.mp hother with hold | hnew
  · have hinactive := (h.aborted ⟨other, hold, hdone⟩).1
    rw [hactive] at hinactive
    cases hinactive
  · obtain rfl := List.mem_singleton.mp hnew
    rw [haborts] at hdone
    cases hdone

/-- A call that leaves the transaction active says of its end what was said before. -/
theorem Coherent.of_active (h : Coherent calls t) (hactive : t.isActive = true) {call : Call}
    (haborts : call.aborts = false) (hchanges : ∀ change ∈ u.changes, change.Coherent)
    (hstill : u.isActive = t.isActive) (hended : u.endedAt = t.endedAt) :
    Coherent (calls ++ [call]) u where
  changes := hchanges
  active_iff := by rw [hstill, hended]; exact h.active_iff
  aborted habort := absurd habort (h.not_aborted hactive haborts)

theorem Coherent.refused (h : Coherent calls t) {call : Call}
    (hrefusal : call.answer.isRefusal = true) : Coherent (calls ++ [call]) t where
  changes := h.changes
  active_iff := h.active_iff
  aborted := by
    rintro ⟨other, hother, hdone⟩
    rcases List.mem_append.mp hother with hold | hnew
    · exact h.aborted ⟨other, hold, hdone⟩
    · obtain rfl := List.mem_singleton.mp hnew
      rw [(not_done_of_refusal hrefusal).2.2] at hdone
      cases hdone

theorem finish_active_iff (t : Transaction) (now : Instant) :
    (t.finish now).isActive = true ↔ (t.finish now).endedAt = none :=
  iff_of_false (fun h => by cases h) (fun h => by cases h)

/-- A completion keeps the changes, so one behind an abort finds none that is pending. -/
theorem Coherent.completed (h : Coherent calls t) (before : Registry) (id : TransactionId)
    (now : Instant) (answer : Answer) :
    Coherent (calls ++ [⟨before, .complete id now, answer⟩]) (t.finish now) where
  changes := h.changes
  active_iff := finish_active_iff t now
  aborted := by
    rintro ⟨other, hother, hdone⟩
    rcases List.mem_append.mp hother with hold | hnew
    · exact ⟨rfl, (h.aborted ⟨other, hold, hdone⟩).2⟩
    · obtain rfl := List.mem_singleton.mp hnew
      cases hdone

theorem Coherent.finish_failPending (h : Coherent calls t) (call : Call) (now : Instant) :
    Coherent (calls ++ [call]) ((t.failPending abortMessage).finish now) where
  changes := Transaction.coherent_failPending abortMessage h.changes
  active_iff := finish_active_iff _ now
  aborted _ := ⟨rfl, fun _ => Transaction.ne_pending_of_mem_failPending⟩

theorem coherent_after (ops : List Op) (id : TransactionId) (t : Transaction)
    (hget : (empty.after ops).get? id = some t) : Coherent (callsOn id (empty.calls ops)) t := by
  refine calls_induction (motive := Coherent) (coherent_start id) ?_ ops t hget
  intro calls registry op answer t u h _ _ houtcome
  cases houtcome with
  | refused hrefusal => exact h.refused hrefusal
  | registered request hactive =>
    refine h.of_active hactive rfl (List.forall_mem_append.mpr ⟨h.changes, ?_⟩) rfl rfl
    exact List.forall_mem_singleton.mpr (coherent_new request)
  | marked key resolution hactive hmarked =>
    have hchanges := Transaction.coherent_resolveFirst? h.changes hmarked
    obtain ⟨changes, -, rfl⟩ := Option.map_eq_some_iff.mp hmarked
    exact h.of_active hactive (by cases resolution <;> rfl) hchanges rfl rfl
  | beginSent hactive => exact h.of_active hactive rfl h.changes rfl rfl
  | commitSent hactive => exact h.of_active hactive rfl h.changes rfl rfl
  | completed now => exact h.completed registry id now _
  | aborted now _ => exact h.finish_failPending _ now

/-- After every run, each change of a stored transaction has the fields that go with its status, the
transaction is active exactly as long as it has no time of its end, and nothing is pending in one
that was aborted, whatever was called on it since. -/
theorem records_coherent (ops : List Op) (id : TransactionId) (t : Transaction)
    (hstored : (empty.after ops).get? id = some t) :
    (∀ change ∈ t.changes, change.Coherent) ∧
    (t.isActive = true ↔ t.endedAt = none) ∧
    ((∃ call ∈ callsOn id (empty.calls ops), call.aborts = true) →
      ∀ change ∈ t.changes, change.status ≠ .pending) := by
  have h := coherent_after ops id t hstored
  exact ⟨h.changes, h.active_iff, fun haborted => (h.aborted haborted).2⟩

/-- An applied, a skipped and a failed change and one that is pending when the transaction is
aborted; then a mark that comes too late and a completion. -/
theorem records_coherent_aborted :
    let id : TransactionId := .generate ⟨1⟩ 1
    let register (key : String) (desired : Value) : Op :=
      .register id ⟨.config, ⟨1⟩, key, some .null, desired, true⟩
    let ops : List Op := [.begin ⟨1⟩ ⟨0, 0⟩, register "lora" (.int 1), register "lora" .null,
      register "power" (.int 2), register "power" (.int 3), .markApplied id "lora" (some 9),
      .markFailed id "power" "NAK", .abort id ⟨5, 0⟩, .markApplied id "power" none,
      .complete id ⟨6, 0⟩]
    ∃ t, (empty.after ops).get? id = some t ∧
      t.changes.map Change.status = [.applied, .skipped, .failed, .failed] ∧
      (∀ change ∈ t.changes, change.Coherent) ∧ (t.isActive = true ↔ t.endedAt = none) ∧
      (∃ call ∈ callsOn id (empty.calls ops), call.aborts = true) ∧
      ∀ change ∈ t.changes, change.status ≠ .pending := by
  intro id register ops
  have hkept : ((empty.after ops).get? id).map (fun t => t.changes.map Change.status) =
      some [.applied, .skipped, .failed, .failed] := by decide +kernel
  have haborted : ∃ call ∈ callsOn id (empty.calls ops), call.aborts = true := by
    rw [← List.any_eq_true]
    decide +kernel
  obtain ⟨t, hstored, hstatuses⟩ := Option.map_eq_some_iff.mp hkept
  obtain ⟨hchanges, hactive, hended⟩ := records_coherent ops id t hstored
  exact ⟨t, hstored, hstatuses, hchanges, hactive, haborted, hended haborted⟩

end Registry

end RadioAdmin
