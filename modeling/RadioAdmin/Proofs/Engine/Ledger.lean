import RadioAdmin.Proofs.Engine.Lifecycle
import RadioAdmin.Proofs.Registry.Ledger

/-!
# The ledger of a transaction over a run of the engine

An admin error that calls for keys fails a change as any mark does. So it is one of the calls on
its transaction, and the summary of the transaction counts it.
-/
namespace RadioAdmin.Engine

/-- The calls that a run of an engine makes on its registry, in order. -/
def calls (engine : Engine) : List Op → List Registry.Call
  | [] => []
  | op :: rest =>
    engine.registry.calls (op.registryOp? engine.settings).toList ++ (engine.step op).1.calls rest

variable (engine : Engine) (settings : Settings)

theorem calls_eq (ops : List Op) :
    engine.calls ops =
      engine.registry.calls (ops.filterMap (Op.registryOp? engine.settings)) := by
  induction ops generalizing engine with
  | nil => rfl
  | cons op rest ih =>
    have hfilter : (op :: rest).filterMap (Op.registryOp? engine.settings) =
        (op.registryOp? engine.settings).toList ++
          rest.filterMap (Op.registryOp? engine.settings) := by
      rw [List.filterMap_cons]
      cases op.registryOp? engine.settings <;> rfl
    rw [calls, ih, step_settings, step_registry, hfilter, Registry.calls_append]

theorem step_complete_of_ended {engine : Engine} {id : TransactionId} {t : Transaction}
    (hget : engine.registry.get? id = some t) (htimed : t.Timed) (hended : t.isActive = false)
    (now : Instant) :
    engine.step (.registry (.complete id now)) = (engine, .registry (.completed t.summary)) := by
  have hstep := Registry.step_complete_of_ended hget htimed hended now
  show ({ engine with registry := (engine.registry.step (.complete id now)).1 },
    Answer.registry (engine.registry.step (.complete id now)).2) = _
  rw [hstep]

/-- The summary of a transaction that is stored after a run is what the calls on it add up to.
Once the transaction has ended, a completion reports the same summary and changes nothing, for as
long as it is stored and no other one has been begun in its place. -/
theorem transaction_ledger (ops : List Op) (id : TransactionId) (t : Transaction)
    (hstored : storedAfter settings ops id = some t) :
    let engine := (new settings).after ops
    let calls := Registry.callsOn id ((new settings).calls ops)
    (t.summary.total = calls.countP Registry.Call.registers ∧
      t.summary.skipped = calls.countP Registry.Call.skips ∧
      t.summary.applied = calls.countP Registry.Call.applies ∧
      t.summary.failed = calls.countP Registry.Call.fails + Registry.pendingAtAbort id calls ∧
      t.summary.pending = (engine.registry.pendingChanges id).length ∧
      t.summary.applied + t.summary.skipped + t.summary.failed + t.summary.pending =
        t.summary.total) ∧
    (t.isActive = false → ∀ later : List Op,
      (∀ call ∈ engine.calls later, call.begins id = false) →
      ∀ u, (engine.after later).registry.get? id = some u → ∀ now,
        (engine.after later).step (.registry (.complete id now)) =
          (engine.after later, .registry (.completed t.summary))) := by
  intro engine calls
  have hcalls : calls =
      Registry.callsOn id (Registry.empty.calls (ops.filterMap (Op.registryOp? settings))) := by
    show Registry.callsOn id ((new settings).calls ops) = _
    rw [calls_eq]
    rfl
  have hget := hstored
  rw [storedAfter_eq] at hget
  have htally := Registry.tally_after _ id t hget
  rw [← hcalls] at htally
  refine ⟨⟨htally.total, htally.skipped, htally.applied, htally.failed, ?_,
    Transaction.countOf_add t⟩, fun hended later hbegins u hu now => ?_⟩
  · have hpending : engine.registry.pendingChanges id = t.pending := by
      show ((storedAfter settings ops id).map Transaction.pending).getD [] = t.pending
      rw [hstored, Option.map_some, Option.getD_some]
    rw [hpending, Transaction.length_pending]
    rfl
  · have htimed := Registry.timed_after hget
    rw [calls_eq] at hbegins
    have hlater := hu
    rw [after_registry] at hlater
    have hdistinct : Fields.Distinct engine.registry.transactions := by
      show Fields.Distinct ((new settings).after ops).registry.transactions
      rw [after_registry]
      exact Registry.distinct_after _
    obtain rfl := Registry.eq_of_ended hdistinct htimed hended
      (fun u hu => Option.some.inj (hu.symm.trans hstored)) hbegins hlater
    exact step_complete_of_ended hu htimed hended now

/-- A change that is applied, one that is skipped, one that is refused for want of keys and one that
is pending when the transaction is aborted; then a completion and another begin. -/
theorem transaction_ledger_aborted :
    let id : TransactionId := .generate ⟨1⟩ 1
    let register (key : String) (desired : Value) : Op :=
      .registry (.register id ⟨.config, ⟨1⟩, key, some .null, desired, true⟩)
    let ops : List Op := [.registry (.begin ⟨1⟩ ⟨0, 0⟩), register "lora" (.int 1),
      register "lora" .null, register "power" (.int 2), register "power" (.int 3),
      .registry (.markApplied id "lora" (some 9)), .adminError id "power" "NOT_AUTHORIZED",
      .registry (.abort id ⟨5, 0⟩)]
    let later : List Op := [.registry (.complete id ⟨6, 0⟩), .registry (.begin ⟨1⟩ ⟨6, 0⟩)]
    let engine := (new .default).after ops
    let calls := Registry.callsOn id ((new .default).calls ops)
    calls.countP Registry.Call.fails = 1 ∧ Registry.pendingAtAbort id calls = 1 ∧
    ∃ t, storedAfter .default ops id = some t ∧ t.isActive = false ∧
      t.summary.failed = 2 ∧ t.summary.pending = 0 ∧
      (engine.after later).step (.registry (.complete id ⟨7, 0⟩)) =
        (engine.after later, .registry (.completed t.summary)) := by
  intro id register ops later engine calls
  have hfails : calls.countP Registry.Call.fails = 1 := by decide +kernel
  have hpending : Registry.pendingAtAbort id calls = 1 := by decide +kernel
  have hleft : (engine.registry.pendingChanges id).length = 0 := by decide +kernel
  have hbegins : ∀ call ∈ engine.calls later, call.begins id = false := by decide +kernel
  have hlater : ((engine.after later).registry.get? id).isSome = true := by decide +kernel
  obtain ⟨t, hstored, hended⟩ : ∃ t, storedAfter .default ops id = some t ∧ t.isActive = false :=
    ⟨_, rfl, rfl⟩
  obtain ⟨u, hu⟩ := Option.isSome_iff_exists.mp hlater
  obtain ⟨⟨-, -, -, hfailed, hremaining, -⟩, hcompleted⟩ :=
    transaction_ledger .default ops id t hstored
  refine ⟨hfails, hpending, t, hstored, hended, ?_, hremaining.trans hleft, ?_⟩
  · rw [hfailed, hfails, hpending]
  · exact hcompleted hended later hbegins u hu ⟨7, 0⟩

end RadioAdmin.Engine
