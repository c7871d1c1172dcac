import RadioAdmin.Proofs.AdminError
import RadioAdmin.Proofs.Engine.Lifecycle
import RadioAdmin.Proofs.Registry.Action

/-!
# Admin errors in a run of the engine

An admin error does something only if its spelling is one of those that call for keys, and then it
does what a mark of failure does. So all other admin errors can be taken out of a run, and these
ones replaced by marks, and nothing else in the run tells the difference.
-/
namespace RadioAdmin

namespace Transaction

/-- The pending changes of a key failed in order, one for each message: a change takes the message
whose place is the number of pending changes of the key before it. -/
def failInOrder (key : String) (messages : List String) (changes : List Change) : List Change :=
  changes.mapIdx fun place change =>
    if change.isPendingFor key then
      (messages[(changes.take place).countP (Change.isPendingFor key)]?).elim change
        fun message => change.fail message
    else change

variable (key : String) (message : String) (messages : List String)

theorem failInOrder_append (front back : List Change) :
    failInOrder key messages (front ++ back) =
      failInOrder key messages front ++
        failInOrder key (messages.drop (front.countP (Change.isPendingFor key))) back := by
  rw [failInOrder, List.mapIdx_append, failInOrder, failInOrder]
  congr 1
  · refine List.mapIdx_eq_mapIdx_iff.mpr fun place hplace => ?_
    rw [List.take_append_of_le_length (Nat.le_of_lt hplace)]
  · refine List.mapIdx_eq_mapIdx_iff.mpr fun place hplace => ?_
    rw [Nat.add_comm, List.take_length_add_append, List.countP_append, List.getElem?_drop]

theorem failInOrder_nil (changes : List Change) : failInOrder key [] changes = changes := by
  rw [failInOrder, List.mapIdx_eq_iff]
  simp

theorem failInOrder_of_none {changes : List Change}
    (h : ∀ change ∈ changes, change.isPendingFor key = false) :
    failInOrder key messages changes = changes := by
  rw [failInOrder, List.mapIdx_eq_iff]
  intro place
  cases hchange : changes[place]? with
  | none => rfl
  | some change =>
    rw [Option.map_some, h change (List.mem_of_getElem? hchange)]
    rfl

/-- The first message goes to the first pending change of the key, and the others are for what is
pending then. -/
theorem failInOrder_cons (changes : List Change) :
    failInOrder key (message :: messages) changes =
      failInOrder key messages
        ((replaceFirst? (Change.isPendingFor key) (Change.fail message) changes).getD changes) := by
  cases h : replaceFirst? (Change.isPendingFor key) (Change.fail message) changes with
  | none =>
    have hnone := replaceFirst?_eq_none_iff.mp h
    rw [Option.getD_none, failInOrder_of_none key _ hnone, failInOrder_of_none key _ hnone]
  | some next =>
    obtain ⟨front, change, back, rfl, hfront, hchange, rfl⟩ := exists_of_replaceFirst? h
    have hcount : front.countP (Change.isPendingFor key) = 0 :=
      List.countP_eq_zero.mpr fun other hother => by rw [hfront other hother]; decide
    have hfailed : (change.fail message).isPendingFor key = false :=
      Change.isPendingFor_resolve key (.failed message) change
    rw [Option.getD_some, failInOrder_append, failInOrder_append, hcount,
      failInOrder_of_none key _ hfront, failInOrder_of_none key _ hfront]
    congr 1
    have hback : change :: back = [change] ++ back := rfl
    have hnext : change.fail message :: back = [change.fail message] ++ back := rfl
    rw [hback, hnext, failInOrder_append, failInOrder_append]
    simp [failInOrder, hchange, hfailed]

end Transaction

namespace Engine

/-- The exact spellings that call for keys. -/
def keySpellings : List String :=
  ["PKI_UNKNOWN_PUBKEY", "ADMIN_PUBLIC_KEY_UNAUTHORIZED", "NOT_AUTHORIZED"]

/-- What a change is told that fails with a spelling. -/
def failureText (spelling : String) : String :=
  spelling ++ ": node does not trust this admin key, configure admin keys on the node"

/-- Whether an operation is an admin error that does not call for keys. -/
def Op.isOtherError : Op → Bool
  | .adminError _ _ spelling => !keySpellings.contains spelling
  | _ => false

/-- An admin error as the mark of failure that it comes to when it calls for keys. -/
def Op.asMark : Op → Op
  | .adminError id key spelling => .registry (.markFailed id key (failureText spelling))
  | op => op

variable {engine : Engine} {id : TransactionId} {key spelling : String}

theorem step_adminError_of_mem (h : spelling ∈ keySpellings) :
    engine.step (.adminError id key spelling) =
      ({ engine with registry := (engine.registry.markFailed id key (failureText spelling)).1 },
        .classified .requiresKeyConfiguration) := by
  have hclass := (AdminErrorCode.errorClass_ofSpelling_iff spelling).mpr h
  have htext : keyFailure (AdminErrorCode.ofSpelling spelling) = failureText spelling := by
    rw [keyFailure, AdminErrorCode.spelling_ofSpelling, failureText]
  rw [step, handleAdminError]
  simp only [hclass, htext]

theorem step_adminError_of_notMem (h : spelling ∉ keySpellings) :
    (engine.step (.adminError id key spelling)).1 = engine := by
  have hclass := mt (AdminErrorCode.errorClass_ofSpelling_iff spelling).mp h
  rw [step, handleAdminError]
  cases hc : (AdminErrorCode.ofSpelling spelling).errorClass with
  | requiresKeyConfiguration => exact absurd hc hclass
  | _ => rfl

/-- An admin error that does not call for keys leaves the engine as it is. -/
theorem step_of_isOtherError {op : Op} (h : op.isOtherError = true) :
    (engine.step op).1 = engine := by
  cases op with
  | adminError id key spelling =>
    exact step_adminError_of_notMem (by simpa [Op.isOtherError] using h)
  | _ => cases h

/-- Every other operation leaves the engine that its mark leaves. -/
theorem step_asMark {op : Op} (h : op.isOtherError = false) :
    (engine.step op.asMark).1 = (engine.step op).1 := by
  cases op with
  | adminError id key spelling =>
    rw [step_adminError_of_mem (by simpa [Op.isOtherError] using h)]
    rfl
  | _ => rfl

/-- Without the admin errors that do not call for keys, every other operation of a run is answered
as before, and the run ends in the same engine. -/
theorem run_filter (engine : Engine) (ops : List Op) :
    let kept := ops.filter fun op => !op.isOtherError
    kept.zip (engine.run kept).2 =
        (ops.zip (engine.run ops).2).filter (fun call => !call.1.isOtherError) ∧
      engine.after kept = engine.after ops := by
  intro kept
  induction ops generalizing engine with
  | nil => exact ⟨rfl, rfl⟩
  | cons op rest ih =>
    obtain ⟨hanswers, hafter⟩ := ih (engine.step op).1
    have hrun : engine.run (op :: rest) = ((engine.step op).1.after rest,
        (engine.step op).2 :: ((engine.step op).1.run rest).2) := rfl
    have hlast : engine.after (op :: rest) = (engine.step op).1.after rest := rfl
    rw [hrun, hlast, List.zip_cons_cons, List.filter_cons]
    cases hother : op.isOtherError with
    | true =>
      have hkept : kept = rest.filter fun op => !op.isOtherError :=
        List.filter_cons_of_neg (by simp [hother])
      have hsame : (engine.step op).1 = engine := step_of_isOtherError hother
      rw [hsame] at hanswers hafter ⊢
      rw [hkept]
      exact ⟨hanswers, hafter⟩
    | false =>
      have hkept : kept = op :: rest.filter fun op => !op.isOtherError :=
        List.filter_cons_of_pos (by simp [hother])
      rw [hkept]
      exact ⟨congrArg ((op, (engine.step op).2) :: ·) hanswers, hafter⟩

theorem after_map_asMark (engine : Engine) (ops : List Op)
    (h : ∀ op ∈ ops, op.isOtherError = false) :
    engine.after (ops.map Op.asMark) = engine.after ops := by
  induction ops generalizing engine with
  | nil => rfl
  | cons op rest ih =>
    obtain ⟨hop, hrest⟩ := List.forall_mem_cons.mp h
    show (engine.step op.asMark).1.after (rest.map Op.asMark) = (engine.step op).1.after rest
    rw [step_asMark hop, ih _ hrest]

/-- A transaction after admin errors for a key, if it is active. -/
def refusedInOrder (key : String) (spellings : List String) (t : Transaction) : Transaction :=
  if t.isActive then
    { t with changes := Transaction.failInOrder key (spellings.map failureText) t.changes }
  else t

theorem refusedInOrder_nil (key : String) (t : Transaction) : refusedInOrder key [] t = t := by
  rw [refusedInOrder, List.map_nil, Transaction.failInOrder_nil]
  exact ite_self t

/-- The mark of an error that calls for keys serves the first of what is pending. -/
theorem refusedInOrder_cons (id : TransactionId) (key spelling : String) (spellings : List String)
    (t : Transaction) :
    refusedInOrder key spellings
        ((Registry.Action.mark key (.failed (failureText spelling))).act id t).1 =
      refusedInOrder key (spelling :: spellings) t := by
  cases hactive : t.isActive with
  | false =>
    have hact := Registry.Action.act_of_not_taken id
      (.mark key (.failed (failureText spelling))) (t := t) hactive
    rw [hact, refusedInOrder, refusedInOrder, hactive]
    rfl
  | true =>
    have hact := Registry.Action.act_of_taken id
      (.mark key (.failed (failureText spelling))) (t := t) hactive
    have hresolved : Registry.resolved key (Change.fail (failureText spelling)) t =
        { t with changes := (Transaction.replaceFirst? (Change.isPendingFor key)
          (Change.fail (failureText spelling)) t.changes).getD t.changes } := by
      rw [Registry.resolved, Transaction.resolveFirst?]
      cases Transaction.replaceFirst? (Change.isPendingFor key)
        (Change.fail (failureText spelling)) t.changes <;> rfl
    rw [hact]
    show refusedInOrder key spellings
      (Registry.resolved key (Change.fail (failureText spelling)) t) = _
    rw [hresolved, refusedInOrder, refusedInOrder, List.map_cons, Transaction.failInOrder_cons,
      hactive]
    simp

/-- Errors that call for keys fail the pending changes of their key in order and touch nothing
else. -/
theorem after_errors (engine : Engine) (id : TransactionId) (key : String) {spellings : List String}
    (h : ∀ spelling ∈ spellings, spelling ∈ keySpellings) :
    engine.after (spellings.map fun spelling => .adminError id key spelling) =
      { engine with registry := engine.registry.update id (refusedInOrder key spellings) } := by
  induction spellings generalizing engine with
  | nil =>
    have hkept : engine.registry.update id (refusedInOrder key []) = engine.registry := by
      cases hget : engine.registry.get? id with
      | none => exact Registry.update_of_none _ hget
      | some t => exact Registry.update_eq_self hget (refusedInOrder_nil key t)
    rw [hkept]
    rfl
  | cons spelling rest ih =>
    obtain ⟨hspelling, hrest⟩ := List.forall_mem_cons.mp h
    have hmark : (engine.registry.markFailed id key (failureText spelling)).1 =
        engine.registry.update id fun t =>
          ((Registry.Action.mark key (.failed (failureText spelling))).act id t).1 :=
      congrArg Prod.fst (Registry.step_on engine.registry id
        (.mark key (.failed (failureText spelling))))
    show (engine.step (.adminError id key spelling)).1.after _ = _
    rw [step_adminError_of_mem hspelling, hmark, ih _ hrest, Registry.update_update]
    simp only [refusedInOrder_cons]

/-- Admin errors that do not call for keys are told by nothing else in a run: taken out, they leave
the answers of all other operations and the engine at the end, which is so up to every point of the
run. Those that call for keys end in the engine that marks of failure end in. So after any run,
errors of this kind for one key fail its first pending changes in order, each with the message of
its error, while connections, other transactions and all else of the transaction stay. -/
theorem admin_errors_do_not_interfere (engine : Engine) (ops : List Op) :
    let kept := ops.filter fun op => !op.isOtherError
    (kept.zip (engine.run kept).2 =
        (ops.zip (engine.run ops).2).filter (fun call => !call.1.isOtherError) ∧
      engine.after kept = engine.after ops ∧
      engine.after (kept.map Op.asMark) = engine.after ops) ∧
    ∀ (id : TransactionId) (key : String) (spellings : List String),
      (∀ spelling ∈ spellings, spelling ∈ keySpellings) →
      (engine.after ops).after (spellings.map fun spelling => .adminError id key spelling) =
        { engine.after ops with
          registry := (engine.after ops).registry.update id (refusedInOrder key spellings) } := by
  intro kept
  obtain ⟨hanswers, hafter⟩ := run_filter engine ops
  have hkept : ∀ op ∈ kept, op.isOtherError = false := fun op hop =>
    (Bool.not_eq_true' _).mp (List.mem_filter.mp hop).2
  have hmarks : engine.after (kept.map Op.asMark) = engine.after ops :=
    (after_map_asMark engine kept hkept).trans hafter
  exact ⟨⟨hanswers, hafter, hmarks⟩, fun id key _ h => after_errors (engine.after ops) id key h⟩

/-- Three pending changes of a key and one of another, a near miss of a spelling and a code of the
radio, and then two errors that call for keys. -/
theorem admin_errors_do_not_interfere_near_miss :
    let id : TransactionId := .generate ⟨1⟩ 1
    let register (key : String) : Op :=
      .registry (.register id ⟨.config, ⟨1⟩, key, none, .null, true⟩)
    let ops : List Op := [.registry (.begin ⟨1⟩ ⟨0, 0⟩), register "lora", register "power",
      .adminError id "lora" "not_authorized", register "lora", .adminError id "power" "TIMEOUT",
      register "lora", .registry (.markBeginSent id)]
    let kept := ops.filter fun op => !op.isOtherError
    let spellings := ["NOT_AUTHORIZED", "PKI_UNKNOWN_PUBKEY"]
    let engine := (new .default).after ops
    let last := engine.after (spellings.map fun spelling => .adminError id "lora" spelling)
    (∀ spelling ∈ spellings, spelling ∈ keySpellings) ∧ kept.length + 2 = ops.length ∧
      (new .default).after kept = engine ∧
      last.registry = engine.registry.update id (refusedInOrder "lora" spellings) ∧
      (last.registry.allChanges id).map Change.errorMessage =
        [some (failureText "NOT_AUTHORIZED"), none, some (failureText "PKI_UNKNOWN_PUBKEY"),
          none] := by
  intro id register ops kept spellings engine last
  have hspellings : ∀ spelling ∈ spellings, spelling ∈ keySpellings := by decide
  obtain ⟨⟨-, hkept, -⟩, herrors⟩ := admin_errors_do_not_interfere (new .default) ops
  have hlast : last.registry = engine.registry.update id (refusedInOrder "lora" spellings) :=
    congrArg Engine.registry (herrors id "lora" spellings hspellings)
  exact ⟨hspellings, by decide +kernel, hkept, hlast, by decide +kernel⟩

end Engine

end RadioAdmin
