import RadioAdmin.Proofs.Registry.Action

/-!
# An abort as failures and a completion

An abort fails every pending change at once. A mark looks for the first pending change of its key,
so with the keys of the pending changes in the order of registration each mark meets the change that
its key was taken from, whatever keys repeat: the marks fail the same changes one by one.
-/
namespace RadioAdmin

namespace Transaction

variable {t : Transaction}

theorem failPending_of_pending_eq_nil (h : t.pending = []) (message : String) :
    t.failPending message = t := by
  have hkept : (t.changes.map fun change =>
      if change.isPending then change.fail message else change) = t.changes := by
    refine (List.map_congr_left fun change hchange => ?_).trans (List.map_id _)
    exact if_neg (List.filter_eq_nil_iff.mp h change hchange)
  rw [failPending, hkept]

/-- The first pending change is the first one of its key. Once it has failed, the others are pending
and are what is left to fail. -/
theorem exists_fail_first {first : Change} {rest : List Change} (h : t.pending = first :: rest)
    (message : String) :
    ∃ u, t.resolveFirst? first.key (Change.fail message) = some u ∧ u.isActive = t.isActive ∧
      u.pending = rest ∧ u.failPending message = t.failPending message := by
  obtain ⟨front, back, hchanges, hfront, hfirst, hback⟩ := List.filter_eq_cons_iff.mp h
  have hfailed : (first.fail message).isPending = false :=
    (Resolution.failed message).isPending_resolve first
  have hmeets : first.isPendingFor first.key = true :=
    Change.isPendingFor_iff.mpr ⟨Change.isPending_iff.mp hfirst, rfl⟩
  have hpassed : ∀ change ∈ front, change.isPendingFor first.key = false := by
    intro change hchange
    rw [Change.isPendingFor, Bool.eq_false_iff.mpr (hfront change hchange), Bool.false_and]
  refine ⟨{ t with changes := front ++ first.fail message :: back }, ?_, rfl, ?_, ?_⟩
  · rw [resolveFirst?, hchanges, replaceFirst?_append _ hpassed, replaceFirst?_of_pos _ hmeets]
    rfl
  · rw [pending, List.filter_append, List.filter_eq_nil_iff.mpr hfront,
      List.filter_cons_of_neg (by rw [hfailed]; decide), hback, List.nil_append]
  · rw [failPending, failPending, hchanges, List.map_append, List.map_append, List.map_cons,
      List.map_cons, hfailed, hfirst]
    rfl

end Transaction

namespace Registry

variable {registry : Registry} {id : TransactionId} {t : Transaction}

/-- The marks that fail the pending changes of a transaction, in the order of registration. -/
def failures (id : TransactionId) (t : Transaction) (message : String) : List Op :=
  t.pending.map fun change => .markFailed id change.key message

/-- Every one of the marks finds a change, and together they fail all that is pending. -/
theorem run_failures (message : String) (h : registry.active id = .ok t) :
    registry.run (failures id t message) =
      (registry.update id fun t => t.failPending message,
        (failures id t message).map fun _ => .done true) := by
  rw [failures]
  -- On what is pending and not on the changes: a mark takes its first one, wherever it stands.
  induction hpending : t.pending generalizing registry t with
  | nil =>
    have hkept := Transaction.failPending_of_pending_eq_nil hpending message
    rw [update_eq_self (active_eq_ok_iff.mp h).1 hkept]
    rfl
  | cons first rest ih =>
    obtain ⟨hget, hactive⟩ := active_eq_ok_iff.mp h
    obtain ⟨u, hresolved, hstillActive, hrest, hfail⟩ :=
      Transaction.exists_fail_first hpending message
    have hstep : registry.step (.markFailed id first.key message) =
        (registry.update id fun _ => u, .done true) := by
      rw [step, markFailed, mark_of_active _ _ h, hresolved]
    have hnext : (registry.update id fun _ => u).active id = .ok u :=
      active_of_get? (get?_update_self _ hget) (hstillActive.trans hactive)
    have hall : (registry.update id fun _ => u.failPending message) =
        registry.update id fun t => t.failPending message := update_congr hget hfail
    rw [List.map_cons, run_cons, hstep, ih hnext hrest, update_update, hall]
    rfl

/-- An abort ends in the registry that a mark of failure for each pending change, in the order of
registration, and a completion end in. Each of these marks succeeds, and so does the abort. -/
theorem abort_eq_failures_complete (registry : Registry) (id : TransactionId) (t : Transaction)
    (now : Instant) (h : registry.active id = .ok t) :
    registry.run (failures id t abortMessage ++ [.complete id now]) =
      ((registry.abort id now).1,
        (failures id t abortMessage).map (fun _ => .done true) ++
          [.completed ((t.failPending abortMessage).finish now).summary]) ∧
    (registry.abort id now).2 = true := by
  have hfailures := run_failures abortMessage h
  have hafter : registry.after (failures id t abortMessage) =
      registry.update id fun t => t.failPending abortMessage := congrArg Prod.fst hfailures
  have hget : (registry.update id fun t => t.failPending abortMessage).get? id =
      some (t.failPending abortMessage) := get?_update_self _ (active_eq_ok_iff.mp h).1
  have hcomplete : (registry.update id fun t => t.failPending abortMessage).step
      (.complete id now) = ((registry.abort id now).1,
        .completed ((t.failPending abortMessage).finish now).summary) := by
    rw [step, complete, hget, abort, changeActive_of_active _ h]
    simp only [update_update]
  constructor
  · rw [run_append, hafter, hfailures, run_cons, hcomplete]
    rfl
  · rw [abort, changeActive_of_active _ h]

/-- Keys that take turns, next to a change that is applied and one that is skipped. -/
theorem abort_eq_failures_complete_repeated :
    let id : TransactionId := .generate ⟨1⟩ 1
    let register (key : String) (previous : Value) : Op :=
      .register id ⟨.config, ⟨1⟩, key, some previous, .int 1, true⟩
    let registry := empty.after [.begin ⟨1⟩ ⟨0, 0⟩, register "lora" .null, register "power" .null,
      register "lora" .null, register "lora" (.int 1), register "power" .null,
      .markApplied id "lora" none]
    ∃ t, registry.active id = .ok t ∧ t.changes.length = 5 ∧
      t.pending.map Change.key = ["power", "lora", "power"] ∧
      (registry.run (failures id t abortMessage ++ [.complete id ⟨9, 0⟩])).1 =
        (registry.abort id ⟨9, 0⟩).1 ∧
      (registry.abort id ⟨9, 0⟩).2 = true := by
  intro id register registry
  have hkept : (registry.get? id).map
      (fun t => (t.isActive, t.changes.length, t.pending.map Change.key)) =
        some (true, 5, ["power", "lora", "power"]) := by
    decide +kernel
  obtain ⟨t, hget, hfacts⟩ := Option.map_eq_some_iff.mp hkept
  obtain ⟨hactive, hrest⟩ := Prod.mk.inj hfacts
  obtain ⟨hlength, hkeys⟩ := Prod.mk.inj hrest
  have h : registry.active id = .ok t := active_of_get? hget hactive
  obtain ⟨hrun, habort⟩ := abort_eq_failures_complete registry id t ⟨9, 0⟩ h
  exact ⟨t, h, hlength, hkeys, congrArg Prod.fst hrun, habort⟩

end Registry

end RadioAdmin
