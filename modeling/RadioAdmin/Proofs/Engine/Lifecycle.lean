import RadioAdmin.Engine
import RadioAdmin.Proofs.Registry.Lifecycle

/-!
# Transactions over a run of the engine

As far as the registry goes, an operation of the engine is one of the registry or none at all:
an admin error that calls for keys fails a change, and maintenance is a cleanup. So a run of the
engine is a run of its registry.
-/
namespace RadioAdmin.Engine

/-- The engine after a list of operations. -/
def after (engine : Engine) (ops : List Op) : Engine := (engine.run ops).1

/-- What the registry of a new engine stores under an identifier after a list of operations. -/
def storedAfter (settings : Settings) (ops : List Op) (id : TransactionId) : Option Transaction :=
  ((new settings).after ops).registry.get? id

/-- The operation of the registry that an operation of an engine comes to. -/
def Op.registryOp? (settings : Settings) : Op → Option Registry.Op
  | .registry op => some op
  | .roster _ => none
  | .adminError id key spelling =>
    let code := AdminErrorCode.ofSpelling spelling
    match code.errorClass with
    | .requiresKeyConfiguration => some (.markFailed id key (keyFailure code))
    | _ => none
  | .maintenance now => some (.cleanupOld settings.transactionMaxAge now)
  | .registerConnections _ => none

def Op.isBegin : Op → Bool
  | .registry op => op.isBegin
  | _ => false

/-- Whether an operation removes transactions: maintenance does, too. -/
def Op.isCleanup : Op → Bool
  | .registry op => op.isCleanup
  | .maintenance _ => true
  | _ => false

theorem step_settings (engine : Engine) (op : Op) :
    (engine.step op).1.settings = engine.settings := by
  cases op with
  | adminError id key spelling =>
    show (engine.handleAdminError id key spelling).1.settings = engine.settings
    rw [handleAdminError]
    cases (AdminErrorCode.ofSpelling spelling).errorClass <;> rfl
  | _ => rfl

theorem step_registry (engine : Engine) (op : Op) :
    (engine.step op).1.registry =
      engine.registry.after (op.registryOp? engine.settings).toList := by
  cases op with
  | adminError id key spelling =>
    show (engine.handleAdminError id key spelling).1.registry = _
    rw [handleAdminError, Op.registryOp?]
    cases (AdminErrorCode.ofSpelling spelling).errorClass <;> rfl
  | _ => rfl

/-- A run of an engine is a run of its registry. -/
theorem after_registry (engine : Engine) (ops : List Op) :
    (engine.after ops).registry =
      engine.registry.after (ops.filterMap (Op.registryOp? engine.settings)) := by
  induction ops generalizing engine with
  | nil => rfl
  | cons op rest ih =>
    show ((engine.step op).1.after rest).registry = _
    rw [ih, step_registry, step_settings, ← Registry.after_append, List.filterMap_cons]
    cases op.registryOp? engine.settings <;> rfl

theorem storedAfter_eq (settings : Settings) (ops : List Op) (id : TransactionId) :
    storedAfter settings ops id =
      (Registry.empty.after (ops.filterMap (Op.registryOp? settings))).get? id := by
  rw [storedAfter, after_registry]
  rfl

theorem isBegin_eq (settings : Settings) (op : Op) :
    op.isBegin = ((op.registryOp? settings).map Registry.Op.isBegin).getD false := by
  cases op with
  | adminError id key spelling =>
    rw [Op.registryOp?]
    cases (AdminErrorCode.ofSpelling spelling).errorClass <;> rfl
  | _ => rfl

theorem begins_filterMap (settings : Settings) (ops : List Op) :
    Registry.begins (ops.filterMap (Op.registryOp? settings)) = ops.countP Op.isBegin := by
  rw [Registry.begins, List.countP_filterMap]
  exact List.countP_congr fun op _ => by rw [isBegin_eq settings op]

theorem isCleanup_of_registryOp? {settings : Settings} {op : Op} {registryOp : Registry.Op}
    (h : op.registryOp? settings = some registryOp) (hcleanup : registryOp.isCleanup = true) :
    op.isCleanup = true := by
  cases op with
  | registry other =>
    obtain rfl := Option.some.inj h
    exact hcleanup
  | maintenance now => rfl
  | adminError id key spelling =>
    rw [Op.registryOp?] at h
    cases hc : (AdminErrorCode.ofSpelling spelling).errorClass with
    | requiresKeyConfiguration =>
      rw [hc] at h
      obtain rfl := Option.some.inj h
      cases hcleanup
    | _ =>
      rw [hc] at h
      cases h
  | _ => cases h

/-- An operation of the registry in a run of it stems from one of the engine at the same place. -/
theorem exists_of_filterMap {settings : Settings} {ops : List Op} {front back : List Registry.Op}
    {op : Registry.Op}
    (h : ops.filterMap (Op.registryOp? settings) = front ++ op :: back) :
    ∃ before source later, ops = before ++ source :: later ∧
      before.filterMap (Op.registryOp? settings) = front ∧
      source.registryOp? settings = some op := by
  obtain ⟨first, second, rfl, hfirst, hsecond⟩ := List.filterMap_eq_append_iff.mp h
  obtain ⟨idle, source, later, rfl, hidle, hsource, -⟩ := List.filterMap_eq_cons_iff.mp hsecond
  refine ⟨first ++ idle, source, later, (List.append_assoc ..).symm, ?_, hsource⟩
  rw [List.filterMap_append, hfirst, List.filterMap_eq_nil_iff.mpr hidle, List.append_nil]

/-- The life of a transaction over every run of an engine that begins fewer than 2 ^ 64 of them.
Between any two points at which it is stored it has evolved: its changes kept their places and
what they ask for, were resolved at most once, its markers stayed set, and once it had ended it
stayed as it was. Where it is no longer stored, a cleanup has taken it out after it had ended,
and its identifier is never stored again. -/
theorem transaction_lifecycle (settings : Settings) (before between later : List Op)
    (hbegins : (before ++ between ++ later).countP Op.isBegin < UInt64.size) (id : TransactionId)
    (t : Transaction) (hstored : storedAfter settings before id = some t) :
    (∀ u, storedAfter settings (before ++ between) id = some u → t.Evolves u) ∧
    (storedAfter settings (before ++ between) id = none →
      (∃ front op back u, between = front ++ op :: back ∧ op.isCleanup = true ∧
        storedAfter settings (before ++ front) id = some u ∧ u.isActive = false ∧
        storedAfter settings (before ++ front ++ [op]) id = none) ∧
      storedAfter settings (before ++ between ++ later) id = none) := by
  rw [← begins_filterMap settings, List.filterMap_append, List.filterMap_append,
    Registry.begins_append, Registry.begins_append] at hbegins
  simp only [storedAfter_eq, List.filterMap_append, Registry.after_append] at hstored ⊢
  -- All of it is said of the registry from the first of the two points on.
  have hempty : Registry.empty.sequence.toNat = 0 := rfl
  have hbefore : Registry.empty.sequence.toNat +
      Registry.begins (before.filterMap (Op.registryOp? settings)) < UInt64.size := by omega
  have hvalid := Registry.valid_empty.after hbefore
  have hsequence := Registry.toNat_sequence_after hbefore
  generalize Registry.empty.after (before.filterMap (Op.registryOp? settings)) = registry at *
  have hroom : registry.sequence.toNat +
      Registry.begins (between.filterMap (Op.registryOp? settings)) < UInt64.size := by omega
  have hlast := Registry.toNat_sequence_after hroom
  refine ⟨fun u hu => Registry.evolves_after hvalid hroom hstored hu, fun hgone => ⟨?_, ?_⟩⟩
  · obtain ⟨front, op, back, u, hrun, hcleanup, hu, hinactive, hnone⟩ :=
      Registry.exists_cleanup hvalid hroom hstored hgone
    obtain ⟨idle, source, rest, hbetween, hfront, hsource⟩ := exists_of_filterMap hrun
    refine ⟨idle, source, rest, u, hbetween, isCleanup_of_registryOp? hsource hcleanup, ?_,
      hinactive, ?_⟩
    · rw [hfront, hu]
    · rw [Registry.after_append] at hnone
      rw [hfront, List.filterMap_cons, hsource]
      exact hnone
  · exact Registry.get?_after_eq_none (hvalid.after hroom)
      ((hvalid.given id t hstored).after hroom) hgone (by omega)

theorem transaction_lifecycle_removed :
    let id : TransactionId := .generate ⟨1⟩ 1
    let begun : Transaction := .start id ⟨1⟩ ⟨0, 0⟩
    let before : List Op := [.registry (.begin ⟨1⟩ ⟨0, 0⟩)]
    let ending : List Op := [.registry (.markBeginSent id), .registry (.complete id ⟨5, 0⟩)]
    let removal : List Op := [.registry (.cleanupEndedBefore ⟨5, 0⟩)]
    let later : List Op := [.registry (.begin ⟨1⟩ ⟨9, 0⟩)]
    (before ++ (ending ++ removal) ++ later).countP Op.isBegin < UInt64.size ∧
    storedAfter .default before id = some begun ∧
    begun.Evolves ({ begun with beginSent := true }.finish ⟨5, 0⟩) ∧
    storedAfter .default (before ++ (ending ++ removal)) id = none ∧
    storedAfter .default (before ++ (ending ++ removal) ++ later) id = none := by
  intro id begun before ending removal later
  have hfew : (before ++ (ending ++ removal) ++ later).countP Op.isBegin < UInt64.size := by decide
  have hbegun : storedAfter .default before id = some begun := rfl
  have hended : storedAfter .default (before ++ ending) id =
    some ({ begun with beginSent := true }.finish ⟨5, 0⟩) := rfl
  have hgone : storedAfter .default (before ++ (ending ++ removal)) id = none := rfl
  have hevolves := (transaction_lifecycle .default before ending [] (by decide) id begun hbegun).1
  have hremoved :=
    (transaction_lifecycle .default before (ending ++ removal) later hfew id begun hbegun).2
  exact ⟨hfew, hbegun, hevolves _ hended, hgone, (hremoved hgone).2⟩

end RadioAdmin.Engine
