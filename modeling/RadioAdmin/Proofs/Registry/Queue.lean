import RadioAdmin.Proofs.Registry.Calls

/-!
# Pending changes as queues

The pending changes of one key are resolved first in first out. The changes that a registration
returned as pending are the queue of their key, and every successful mark of the key resolves the
next one of them; skipped changes are in no queue. The queue and the number of its marks give the
changes of the key at every point of a run.
-/
namespace RadioAdmin

/-- Whether a change is in the queue of a key, resolved or not. -/
def Change.isQueuedFor (key : String) (change : Change) : Bool :=
  change.key == key && change.status ≠ .skipped

namespace Change

theorem isQueuedFor_of_isPendingFor {key : String} {change : Change}
    (h : change.isPendingFor key = true) : change.isQueuedFor key = true := by
  obtain ⟨hstatus, hkey⟩ := isPendingFor_iff.mp h
  simp [isQueuedFor, hstatus, hkey]

theorem isQueuedFor_resolve (key : String) (resolution : Resolution) (change : Change) :
    (resolution.resolve change).isQueuedFor key = (change.key == key) := by
  rw [isQueuedFor, Resolution.key_resolve, Resolution.status_resolve]
  cases resolution <;> exact Bool.and_true _

end Change

namespace Registry

/-- How a call has resolved a change of a key. -/
def Call.resolution? (key : String) (call : Call) : Option Resolution :=
  match call.op, call.answer with
  | .markApplied _ other packet, .done true => if other = key then some (.applied packet) else none
  | .markFailed _ other message, .done true => if other = key then some (.failed message) else none
  | _, _ => none

/-- The changes that calls have registered, as they were returned. -/
def registrations (calls : List Call) : List Change := calls.filterMap Call.registered?

/-- The changes of a key that were returned as pending. -/
def queueFor (key : String) (calls : List Call) : List Change :=
  (registrations calls).filter (Change.isPendingFor key)

/-- The resolutions by the successful marks of a key. -/
def marksFor (key : String) (calls : List Call) : List Resolution :=
  calls.filterMap (Call.resolution? key)

/-- A queue after some marks: each of them has resolved one change, in order. -/
def served (queue : List Change) (marks : List Resolution) : List Change :=
  List.zipWith (fun change resolution => resolution.resolve change) queue marks ++
    queue.drop marks.length

theorem served_nil (queue : List Change) : served queue [] = queue := by
  rw [served, List.zipWith_nil_right, List.nil_append, List.length_nil, List.drop_zero]

theorem served_cons (change : Change) (queue : List Change) (resolution : Resolution)
    (marks : List Resolution) :
    served (change :: queue) (resolution :: marks) =
      resolution.resolve change :: served queue marks := rfl

theorem served_concat {queue : List Change} {marks : List Resolution} (change : Change)
    (hle : marks.length ≤ queue.length) :
    served (queue ++ [change]) marks = served queue marks ++ [change] := by
  induction queue generalizing marks with
  | nil =>
    obtain rfl := List.eq_nil_of_length_eq_zero (Nat.le_zero.mp hle)
    rw [served_nil, served_nil]
  | cons first queue ih =>
    cases marks with
    | nil => rw [served_nil, served_nil]
    | cons resolution marks =>
      rw [List.cons_append, served_cons, served_cons, ih (Nat.le_of_succ_le_succ hle),
        List.cons_append]

variable {key : String} {queue : List Change}

/-- The next mark resolves the first change behind those that have been marked, if there is one. -/
theorem replaceFirst?_served (resolution : Resolution) (marks : List Resolution)
    (hqueue : ∀ change ∈ queue, change.isPendingFor key = true)
    (hle : marks.length ≤ queue.length) :
    Transaction.replaceFirst? (Change.isPendingFor key) resolution.resolve (served queue marks) =
      if marks.length < queue.length then some (served queue (marks ++ [resolution]))
      else none := by
  induction queue generalizing marks with
  | nil =>
    obtain rfl := List.eq_nil_of_length_eq_zero (Nat.le_zero.mp hle)
    rfl
  | cons change queue ih =>
    obtain ⟨hchange, hrest⟩ := List.forall_mem_cons.mp hqueue
    cases marks with
    | nil =>
      rw [served_nil, Transaction.replaceFirst?, if_pos hchange, List.nil_append, served_cons,
        served_nil]
      exact (if_pos (Nat.zero_lt_succ _)).symm
    | cons first marks =>
      have hfirst : ¬ (first.resolve change).isPendingFor key = true := by
        rw [Change.isPendingFor_resolve]
        decide
      rw [served_cons, Transaction.replaceFirst?, if_neg hfirst,
        ih marks hrest (Nat.le_of_succ_le_succ hle), List.cons_append, served_cons]
      simp only [List.length_cons, Nat.succ_lt_succ_iff]
      split <;> rfl

theorem find?_served (marks : List Resolution)
    (hqueue : ∀ change ∈ queue, change.isPendingFor key = true)
    (hle : marks.length ≤ queue.length) :
    (served queue marks).find? (Change.isPendingFor key) = queue[marks.length]? := by
  induction queue generalizing marks with
  | nil =>
    obtain rfl := List.eq_nil_of_length_eq_zero (Nat.le_zero.mp hle)
    rfl
  | cons change queue ih =>
    obtain ⟨hchange, hrest⟩ := List.forall_mem_cons.mp hqueue
    cases marks with
    | nil =>
      rw [served_nil, List.find?_cons_of_pos hchange, List.length_nil, List.getElem?_cons_zero]
    | cons first marks =>
      have hfirst : ¬ (first.resolve change).isPendingFor key = true := by
        rw [Change.isPendingFor_resolve]
        decide
      rw [served_cons, List.find?_cons_of_neg hfirst, ih marks hrest (Nat.le_of_succ_le_succ hle),
        List.length_cons, List.getElem?_cons_succ]

theorem registrations_concat (calls : List Call) (call : Call) :
    registrations (calls ++ [call]) = registrations calls ++ call.registered?.toList := by
  rw [registrations, List.filterMap_append, List.filterMap_cons, registrations]
  cases call.registered? <;> rfl

theorem marksFor_concat (key : String) (calls : List Call) (call : Call) :
    marksFor key (calls ++ [call]) = marksFor key calls ++ (call.resolution? key).toList := by
  rw [marksFor, List.filterMap_append, List.filterMap_cons, marksFor]
  cases call.resolution? key <;> rfl

theorem resolution?_of_refusal {call : Call} (key : String) (h : call.answer.isRefusal = true) :
    call.resolution? key = none := by
  obtain ⟨before, op, answer⟩ := call
  cases answer with
  | done success =>
    cases success with
    | true => cases h
    | false => cases op <;> rfl
  | refused error => cases op <;> rfl
  | _ => cases h

theorem resolution?_mark (before : Registry) (id : TransactionId) (key other : String)
    (resolution : Resolution) :
    (Call.mk before (resolution.mark id key) (.done true)).resolution? other =
      if key = other then some resolution else none := by
  cases resolution <;> rfl

theorem registered?_mark (before : Registry) (id : TransactionId) (key : String)
    (resolution : Resolution) :
    (Call.mk before (resolution.mark id key) (.done true)).registered? = none := rfl

/-- What the calls on an active transaction have told of its changes. -/
structure Queued (calls : List Call) (t : Transaction) : Prop where
  length_marks (key : String) : (marksFor key calls).length ≤ (queueFor key calls).length
  served (key : String) :
    t.changes.filter (Change.isQueuedFor key) = served (queueFor key calls) (marksFor key calls)
  skipped : t.changes.filter (fun change => change.status = .skipped) =
    (registrations calls).filter fun change => change.status = .skipped

theorem queued_start (id : TransactionId) (node : NodeId) (now : Instant) :
    Queued [] (.start id node now) where
  length_marks _ := Nat.le_refl 0
  served _ := rfl
  skipped := rfl

/-- A call that neither registers nor resolves a change tells nothing new. -/
theorem Queued.of_unchanged {calls : List Call} {t u : Transaction} (h : Queued calls t)
    {call : Call} (hregistered : call.registered? = none)
    (hresolution : ∀ key, call.resolution? key = none) (hchanges : u.changes = t.changes) :
    Queued (calls ++ [call]) u := by
  have hregistrations : registrations (calls ++ [call]) = registrations calls := by
    rw [registrations_concat, hregistered, Option.toList_none, List.append_nil]
  have hmarks : ∀ key, marksFor key (calls ++ [call]) = marksFor key calls := by
    intro key
    rw [marksFor_concat, hresolution key, Option.toList_none, List.append_nil]
  have hqueue : ∀ key, queueFor key (calls ++ [call]) = queueFor key calls := by
    intro key
    rw [queueFor, hregistrations, queueFor]
  constructor
  · intro key
    rw [hmarks, hqueue]
    exact h.length_marks key
  · intro key
    rw [hmarks, hqueue, hchanges]
    exact h.served key
  · rw [hregistrations, hchanges]
    exact h.skipped

theorem forall_mem_queueFor (key : String) (calls : List Call) :
    ∀ change ∈ queueFor key calls, change.isPendingFor key = true :=
  fun _ hmem => (List.mem_filter.mp hmem).2

theorem queueFor_concat (key : String) (calls : List Call) (call : Call) :
    queueFor key (calls ++ [call]) =
      queueFor key calls ++ call.registered?.toList.filter (Change.isPendingFor key) := by
  rw [queueFor, registrations_concat, List.filter_append, queueFor]

theorem isQueuedFor_of_new (key : String) {change : Change}
    (hnew : change.status = .pending ∨ change.status = .skipped) :
    change.isQueuedFor key = change.isPendingFor key := by
  rw [Change.isQueuedFor, Change.isPendingFor, Change.isPending]
  rcases hnew with h | h <;> simp [h]

/-- A registered change goes to the end of the queue of its key, unless it is skipped. -/
theorem Queued.registered {calls : List Call} {t : Transaction} (h : Queued calls t)
    (before : Registry) (op : Op) {change : Change}
    (hnew : change.status = .pending ∨ change.status = .skipped) :
    Queued (calls ++ [⟨before, op, .registered change⟩])
      { t with changes := t.changes ++ [change] } := by
  have hmarks : ∀ key, marksFor key (calls ++ [⟨before, op, .registered change⟩]) =
      marksFor key calls := by
    intro key
    have hnone : (Call.mk before op (.registered change)).resolution? key = none := by
      cases op <;> rfl
    rw [marksFor_concat, hnone, Option.toList_none, List.append_nil]
  have hqueue : ∀ key, queueFor key (calls ++ [⟨before, op, .registered change⟩]) =
      queueFor key calls ++ [change].filter (Change.isPendingFor key) :=
    fun key => queueFor_concat key calls _
  constructor
  · intro key
    have hle := h.length_marks key
    rw [hmarks, hqueue, List.length_append]
    omega
  · intro key
    have hle := h.length_marks key
    rw [hmarks, hqueue, List.filter_append, h.served key, List.filter_singleton,
      List.filter_singleton, isQueuedFor_of_new key hnew]
    cases change.isPendingFor key with
    | true => exact (served_concat change hle).symm
    | false => rw [cond_false, List.append_nil, List.append_nil]
  · rw [registrations_concat, List.filter_append, List.filter_append, h.skipped]
    rfl

/-- Among the changes of its queue, a mark replaces the next one if there is one. -/
theorem Queued.map_replaceFirst? {calls : List Call} {t : Transaction} (h : Queued calls t)
    (key : String) (resolution : Resolution) :
    (Transaction.replaceFirst? (Change.isPendingFor key) resolution.resolve t.changes).map
        (List.filter (Change.isQueuedFor key)) =
      if (marksFor key calls).length < (queueFor key calls).length then
        some (Registry.served (queueFor key calls) (marksFor key calls ++ [resolution]))
      else none := by
  rw [← replaceFirst?_served resolution _ (forall_mem_queueFor key calls) (h.length_marks key),
    ← h.served key, Transaction.replaceFirst?_filter]
  intro change hchange
  have hkey := (Change.isPendingFor_iff.mp hchange).2
  rw [Change.isQueuedFor_resolve, beq_iff_eq]
  exact ⟨Change.isQueuedFor_of_isPendingFor hchange, hkey⟩

/-- A mark resolves the next change in the queue of its key and is the next of its marks. -/
theorem Queued.marked {calls : List Call} {t u : Transaction} (h : Queued calls t)
    (before : Registry) (id : TransactionId) (key : String) (resolution : Resolution)
    (hmarked : t.resolveFirst? key resolution.resolve = some u) :
    Queued (calls ++ [⟨before, resolution.mark id key, .done true⟩]) u := by
  obtain ⟨changes, hreplace, rfl⟩ := Option.map_eq_some_iff.mp hmarked
  have hregistrations : registrations (calls ++ [⟨before, resolution.mark id key, .done true⟩]) =
      registrations calls := by
    rw [registrations_concat, registered?_mark, Option.toList_none, List.append_nil]
  have hqueue : ∀ other, queueFor other (calls ++ [⟨before, resolution.mark id key, .done true⟩]) =
      queueFor other calls := by
    intro other
    rw [queueFor, hregistrations, queueFor]
  have hmarks : ∀ other, marksFor other (calls ++ [⟨before, resolution.mark id key, .done true⟩]) =
      marksFor other calls ++ if key = other then [resolution] else [] := by
    intro other
    rw [marksFor_concat, resolution?_mark]
    split <;> rfl
  -- The change that is replaced is in the queue of the key, so that the queue had one left.
  have hnext : (marksFor key calls).length < (queueFor key calls).length ∧
      changes.filter (Change.isQueuedFor key) =
        Registry.served (queueFor key calls) (marksFor key calls ++ [resolution]) := by
    have hserved := h.map_replaceFirst? key resolution
    rw [hreplace, Option.map_some] at hserved
    split at hserved
    · exact ⟨‹_›, Option.some.inj hserved⟩
    · cases hserved
  constructor
  · intro other
    have hle := h.length_marks other
    rw [hmarks, hqueue]
    by_cases hk : key = other
    · subst hk
      rw [if_pos rfl, List.length_append, List.length_singleton]
      exact hnext.1
    · rw [if_neg hk, List.append_nil]
      exact hle
  · intro other
    rw [hmarks, hqueue]
    by_cases hk : key = other
    · subst hk
      rw [if_pos rfl]
      exact hnext.2
    · rw [if_neg hk, List.append_nil, ← h.served other]
      refine Transaction.filter_of_replaceFirst? hreplace fun change hchange => ?_
      have hother : (change.key == other) = false := by
        rw [(Change.isPendingFor_iff.mp hchange).2]
        exact beq_false_of_ne hk
      rw [Change.isQueuedFor_resolve, Change.isQueuedFor, hother]
      exact ⟨rfl, rfl⟩
  · rw [hregistrations, ← h.skipped]
    refine Transaction.filter_of_replaceFirst? hreplace fun change hchange => ?_
    rw [Resolution.status_resolve, (Change.isPendingFor_iff.mp hchange).1]
    cases resolution <;> exact ⟨rfl, rfl⟩

/-- The queues of an active transaction after every run. -/
theorem queued_after (ops : List Op) (id : TransactionId) (t : Transaction)
    (hactive : (empty.after ops).active id = .ok t) :
    Queued (callsOn id (empty.calls ops)) t := by
  obtain ⟨hget, hactive⟩ := active_eq_ok_iff.mp hactive
  refine calls_induction (motive := fun calls t => t.isActive = true → Queued calls t)
    (fun node now _ => queued_start id node now) ?_ ops t hget hactive
  intro calls registry op answer t u h _ _ houtcome hactive
  cases houtcome with
  | refused hrefusal =>
    exact (h hactive).of_unchanged (registered?_of_refusal hrefusal)
      (fun key => resolution?_of_refusal key hrefusal) rfl
  | registered request _ =>
    exact (h hactive).registered registry _ (initialStatus_cases request)
  | marked key resolution hbefore hmarked =>
    exact (h hbefore).marked registry id key resolution hmarked
  | beginSent hbefore => exact (h hbefore).of_unchanged rfl (fun _ => rfl) rfl
  | commitSent hbefore => exact (h hbefore).of_unchanged rfl (fun _ => rfl) rfl
  | completed now => cases hactive
  | aborted now _ => cases hactive

variable {calls : List Call} {registry : Registry} {id : TransactionId} {t : Transaction}

theorem Queued.find?_eq (h : Queued calls t) (key : String) :
    t.changes.find? (Change.isPendingFor key) =
      (queueFor key calls)[(marksFor key calls).length]? := by
  have hboth : (fun change => decide (change.isQueuedFor key = true ∧
      change.isPendingFor key = true)) = Change.isPendingFor key := by
    funext change
    cases hp : change.isPendingFor key with
    | true => simp [Change.isQueuedFor_of_isPendingFor hp]
    | false => simp
  rw [← find?_served _ (forall_mem_queueFor key calls) (h.length_marks key), ← h.served key,
    List.find?_filter, hboth]

/-- On an active transaction a mark resolves the next change of its queue in its place, and
nothing else. -/
theorem Queued.step_mark (h : Queued calls t) (hactive : registry.active id = .ok t)
    (key : String) (resolution : Resolution)
    (hlt : (marksFor key calls).length < (queueFor key calls).length) :
    ∃ position change, (queueFor key calls)[(marksFor key calls).length]? = some change ∧
      t.changes[position]? = some change ∧
      registry.step (resolution.mark id key) =
        (registry.update id fun _ =>
          { t with changes := t.changes.set position (resolution.resolve change) },
          .done true) := by
  have hmap := h.map_replaceFirst? key resolution
  rw [if_pos hlt] at hmap
  obtain ⟨changes, hreplace, -⟩ := Option.map_eq_some_iff.mp hmap
  have hresolve : t.resolveFirst? key resolution.resolve = some { t with changes := changes } := by
    rw [Transaction.resolveFirst?, hreplace, Option.map_some]
  obtain ⟨front, change, back, hchanges, hfront, hchange, rfl⟩ :=
    Transaction.exists_of_replaceFirst? hreplace
  have hfind : t.changes.find? (Change.isPendingFor key) = some change := by
    rw [List.find?_eq_some_iff_append]
    exact ⟨hchange, front, back, hchanges, fun other hmem => by rw [hfront other hmem]; rfl⟩
  refine ⟨front.length, change, (h.find?_eq key).symm.trans hfind, ?_, ?_⟩
  · simp [hchanges]
  · rw [Registry.step_mark, mark_of_active key _ hactive, hresolve, hchanges]
    simp

/-- On an active transaction whose queue has been resolved, a mark does nothing. -/
theorem Queued.step_mark_exhausted (h : Queued calls t) (hactive : registry.active id = .ok t)
    (key : String) (resolution : Resolution)
    (heq : (marksFor key calls).length = (queueFor key calls).length) :
    registry.step (resolution.mark id key) = (registry, .done false) := by
  have hmap := h.map_replaceFirst? key resolution
  rw [if_neg (by omega), Option.map_eq_none_iff] at hmap
  rw [Registry.step_mark, mark_of_active key _ hactive, Transaction.resolveFirst?, hmap]
  rfl

theorem step_mark_of_error (key : String) (resolution : Resolution) {error : RegistryError}
    (h : registry.active id = .error error) :
    registry.step (resolution.mark id key) = (registry, .done false) := by
  rw [step_mark, mark_of_error key _ h]

/-- First in, first out, after every run: the marks of a key have resolved as many changes from
the front of its queue as they are, one each, and nothing that was skipped. A further mark resolves
the next change of the queue in its place, and fails without any effect exactly when the
transaction is not active or all of the queue has been resolved. -/
theorem pending_first_in_first_out (ops : List Op) (id : TransactionId) (key : String) :
    let registry := empty.after ops
    let calls := callsOn id (empty.calls ops)
    let queue := queueFor key calls
    let marks := marksFor key calls
    (∀ t, registry.active id = .ok t →
      marks.length ≤ queue.length ∧
      t.changes.filter (Change.isQueuedFor key) = served queue marks ∧
      t.changes.filter (fun change => change.status = .skipped) =
        (registrations calls).filter fun change => change.status = .skipped) ∧
    ∀ resolution : Resolution,
      (registry.step (resolution.mark id key) = (registry, .done false) ↔
        (∀ t, registry.active id ≠ .ok t) ∨ marks.length = queue.length) ∧
      ∀ t, registry.active id = .ok t → marks.length < queue.length →
        ∃ position change, queue[marks.length]? = some change ∧ change.key = key ∧
          change.status = .pending ∧ t.changes[position]? = some change ∧
          registry.step (resolution.mark id key) =
            (registry.update id fun _ =>
              { t with changes := t.changes.set position (resolution.resolve change) },
              .done true) := by
  intro registry calls queue marks
  have hqueued : ∀ t, registry.active id = .ok t → Queued calls t := queued_after ops id
  refine ⟨fun t ht => ?_, fun resolution => ⟨⟨fun hstep => ?_, ?_⟩, fun t ht hlt => ?_⟩⟩
  · have h := hqueued t ht
    exact ⟨h.length_marks key, h.served key, h.skipped⟩
  · by_contra hnot
    obtain ⟨hactive, hlength⟩ := not_or.mp hnot
    obtain ⟨t, ht⟩ := not_forall_not.mp hactive
    have hle := (hqueued t ht).length_marks key
    obtain ⟨position, change, -, -, hdone⟩ :=
      (hqueued t ht).step_mark ht key resolution (lt_of_le_of_ne hle hlength)
    rw [hstep] at hdone
    cases congrArg Prod.snd hdone
  · rintro (hinactive | hlength)
    · cases ha : registry.active id with
      | ok t => exact absurd ha (hinactive t)
      | error error => exact step_mark_of_error key resolution ha
    · cases ha : registry.active id with
      | ok t => exact (hqueued t ha).step_mark_exhausted ha key resolution hlength
      | error error => exact step_mark_of_error key resolution ha
  · obtain ⟨position, change, hnext, hposition, hdone⟩ :=
      (hqueued t ht).step_mark ht key resolution hlt
    have hpending := Change.isPendingFor_iff.mp
      (forall_mem_queueFor key calls change (List.mem_of_getElem? hnext))
    exact ⟨position, change, hnext, hpending.2, hpending.1, hposition, hdone⟩

/-- A key with two pending changes, of which the first has been applied, next to a skipped one and
one of another key. -/
theorem pending_first_in_first_out_two_keys :
    let id : TransactionId := .generate ⟨1⟩ 1
    let register (key : String) (desired : Value) : Op :=
      .register id ⟨.config, ⟨1⟩, key, some .null, desired, true⟩
    let ops : List Op := [.begin ⟨1⟩ ⟨0, 0⟩, register "lora" (.int 1), register "lora" .null,
      register "power" (.int 7), register "lora" (.int 2), .markApplied id "lora" (some 9)]
    ∃ t first second position, (empty.after ops).active id = .ok t ∧
      queueFor "lora" (callsOn id (empty.calls ops)) = [first, second] ∧
      t.changes.filter (Change.isQueuedFor "lora") = [first.apply (some 9), second] ∧
      t.changes[position]? = some second ∧
      (empty.after ops).step (.markFailed id "lora" "NAK") =
        ((empty.after ops).update id fun _ =>
          { t with changes := t.changes.set position (second.fail "NAK") }, .done true) := by
  intro id register ops
  obtain ⟨t, hactive⟩ : ∃ t, (empty.after ops).active id = .ok t := ⟨_, rfl⟩
  have hlength : (queueFor "lora" (callsOn id (empty.calls ops))).length = 2 := by decide +kernel
  have hmarks : marksFor "lora" (callsOn id (empty.calls ops)) = [.applied (some 9)] := by
    decide +kernel
  obtain ⟨first, second, hqueue⟩ := List.length_eq_two.mp hlength
  obtain ⟨hstored, hmark⟩ := pending_first_in_first_out ops id "lora"
  have hserved := (hstored t hactive).2.1
  obtain ⟨position, change, hnext, -, -, hposition, hdone⟩ :=
    (hmark (.failed "NAK")).2 t hactive (by rw [hqueue, hmarks]; exact Nat.one_lt_two)
  rw [hqueue, hmarks] at hserved hnext
  obtain rfl : second = change := Option.some.inj hnext
  exact ⟨t, first, second, position, hactive, hqueue, hserved, hposition, hdone⟩

end Registry

end RadioAdmin
