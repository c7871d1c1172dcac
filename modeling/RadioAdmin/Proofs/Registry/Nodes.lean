import RadioAdmin.Proofs.Registry.Identifiers

/-!
# The nodes of a transaction

A transaction is begun for a node, and every registration names a node of its own. Nothing compares
the two: a change goes to the node of its request, and so does what undoes it. The changes of a
transaction are for one node exactly as long as every accepted request names that node.
-/
namespace RadioAdmin

/-- Whether a part of a change stays what it is when the change is resolved. -/
def Change.Keeps {α : Type} (part : Change → α) : Prop :=
  ∀ (resolution : Resolution) (change : Change), part (resolution.resolve change) = part change

namespace Transaction

variable {α : Type} {part : Change → α} {t u : Transaction}

theorem map_resolveFirst? (hkeeps : Change.Keeps part) {key : String} {resolution : Resolution}
    (h : t.resolveFirst? key resolution.resolve = some u) :
    u.changes.map part = t.changes.map part := by
  obtain ⟨changes, hreplace, rfl⟩ := Option.map_eq_some_iff.mp h
  obtain ⟨front, change, back, hbefore, -, -, rfl⟩ := exists_of_replaceFirst? hreplace
  rw [hbefore, List.map_append, List.map_append, List.map_cons, List.map_cons, hkeeps]

theorem map_failPending (hkeeps : Change.Keeps part) (t : Transaction) (message : String) :
    (t.failPending message).changes.map part = t.changes.map part := by
  rw [failPending, List.map_map]
  refine List.map_congr_left fun change _ => ?_
  rw [Function.comp_apply]
  split
  · exact hkeeps (.failed message) change
  · rfl

/-- What undoes a transaction is part of what was changed, in the same order. -/
theorem revertData_sublist (t : Transaction) :
    (t.revertData.map fun entry => (entry.kind, entry.key, entry.node)).Sublist
      (t.changes.map fun change => (change.kind, change.key, change.node)) := by
  rw [revertData]
  induction t.changes with
  | nil => exact List.Sublist.slnil
  | cons change rest ih =>
    rw [List.map_cons]
    by_cases happlied : change.status = .applied
    · rw [List.filter_cons_of_pos (by simpa using happlied)]
      cases hprevious : change.previous with
      | none =>
        rw [List.filterMap_cons_none (by rw [hprevious]; rfl)]
        exact ih.cons _
      | some previous =>
        rw [List.filterMap_cons_some (by rw [hprevious]; rfl), List.map_cons]
        exact ih.cons_cons _
    · rw [List.filter_cons_of_neg (by simpa using happlied)]
      exact ih.cons _

end Transaction

namespace Registry

/-- The request of a registration that a call has accepted. -/
def Call.accepted? (call : Call) : Option ChangeRequest :=
  match call.op, call.answer with
  | .register _ request, .registered _ => some request
  | _, _ => none

/-- The requests that calls have accepted, in order. -/
def acceptedRequests (calls : List Call) : List ChangeRequest := calls.filterMap Call.accepted?

theorem acceptedRequests_concat (calls : List Call) (call : Call) :
    acceptedRequests (calls ++ [call]) = acceptedRequests calls ++ call.accepted?.toList := by
  rw [acceptedRequests, List.filterMap_append, List.filterMap_cons, acceptedRequests]
  cases call.accepted? <;> rfl

theorem accepted?_of_refusal {call : Call} (h : call.answer.isRefusal = true) :
    call.accepted? = none := by
  obtain ⟨before, op, answer⟩ := call
  cases answer with
  | registered change => cases h
  | _ => cases op <;> rfl

/-- The changes of a transaction are the accepted requests in what a resolution keeps of them. -/
theorem map_changes_after {α : Type} {part : Change → α} (hkeeps : Change.Keeps part)
    (ops : List Op) (id : TransactionId) (t : Transaction)
    (hget : (empty.after ops).get? id = some t) :
    t.changes.map part = (acceptedRequests (callsOn id (empty.calls ops))).map fun request =>
      part (request.toChange (initialStatus request)) := by
  refine calls_induction (motive := fun calls t => t.changes.map part =
    (acceptedRequests calls).map fun request => part (request.toChange (initialStatus request)))
    (fun _ _ => rfl) ?_ ops t hget
  intro calls registry op answer t u h _ _ houtcome
  rw [acceptedRequests_concat]
  cases houtcome with
  | refused hrefusal => rw [accepted?_of_refusal hrefusal, h, Option.toList_none, List.append_nil]
  | registered request _ => rw [List.map_append, List.map_append, h]; rfl
  | marked key resolution _ hmarked =>
    rw [Transaction.map_resolveFirst? hkeeps hmarked, h]
    cases resolution <;> exact congrArg _ (List.append_nil _).symm
  | beginSent _ => exact h.trans (congrArg _ (List.append_nil _).symm)
  | commitSent _ => exact h.trans (congrArg _ (List.append_nil _).symm)
  | completed now => exact h.trans (congrArg _ (List.append_nil _).symm)
  | aborted now _ =>
    exact (Transaction.map_failPending hkeeps t abortMessage).trans
      (h.trans (congrArg _ (List.append_nil _).symm))

theorem revertData_of_get? {registry : Registry} {id : TransactionId} {t : Transaction}
    (hget : registry.get? id = some t) : registry.revertData id = t.revertData := by
  rw [revertData, hget, Option.map_some, Option.getD_some]

theorem keeps_node : Change.Keeps Change.node := by
  intro resolution change
  cases resolution <;> rfl

theorem keeps_slot : Change.Keeps fun change => (change.kind, change.key, change.node) := by
  intro resolution change
  cases resolution <;> rfl

/-- A stored transaction was begun for its node, and its changes are for the nodes that the accepted
requests name; the values that undo it go to where these requests went. So its changes, its revert
data and its summary are all for its own node exactly when each accepted request names this node. -/
theorem one_node_iff (ops : List Op) (id : TransactionId) (t : Transaction)
    (hstored : (empty.after ops).get? id = some t) :
    let requests := acceptedRequests (callsOn id (empty.calls ops))
    let reverts := (empty.after ops).revertData id
    (∃ front now back, ops = front ++ .begin t.node now :: back ∧ id = idBehind front t.node) ∧
    t.changes.map Change.node = requests.map ChangeRequest.node ∧
    (reverts.map fun entry => (entry.kind, entry.key, entry.node)).Sublist
      (requests.map fun request => (request.kind, request.key, request.node)) ∧
    ((∀ change ∈ t.changes, change.node = t.node) ∧ (∀ entry ∈ reverts, entry.node = t.node) ∧
        t.summary.node = t.node ↔
      ∀ request ∈ requests, request.node = t.node) := by
  intro requests reverts
  have hreverts : reverts = t.revertData := revertData_of_get? hstored
  have hnodes : t.changes.map Change.node = requests.map ChangeRequest.node :=
    map_changes_after keeps_node ops id t hstored
  have hslots : t.changes.map (fun change => (change.kind, change.key, change.node)) =
      requests.map fun request => (request.kind, request.key, request.node) :=
    map_changes_after keeps_slot ops id t hstored
  have hsublist := t.revertData_sublist
  rw [← hreverts, hslots] at hsublist
  refine ⟨?_, hnodes, hsublist, fun ⟨hchanges, _, _⟩ => ?_, fun hrequests => ⟨?_, ?_, rfl⟩⟩
  · obtain ⟨hid, front, now, back, hbegin, hnumber⟩ := exists_begin_of_stored hstored
    exact ⟨front, now, back, hbegin, hid.symm.trans hnumber⟩
  · rw [← List.forall_mem_map (f := ChangeRequest.node) (P := (· = t.node)), ← hnodes,
      List.forall_mem_map]
    exact hchanges
  · rw [← List.forall_mem_map (f := Change.node) (P := (· = t.node)), hnodes, List.forall_mem_map]
    exact hrequests
  · intro entry hentry
    have hslot := hsublist.subset (List.mem_map_of_mem hentry)
    obtain ⟨request, hrequest, heq⟩ := List.mem_map.mp hslot
    obtain ⟨-, hrest⟩ := Prod.mk.inj heq
    rw [← (Prod.mk.inj hrest).2]
    exact hrequests request hrequest

/-- A request for another node that comes too late is refused and does no harm. -/
theorem one_node_iff_refused :
    let id : TransactionId := .generate ⟨1⟩ 1
    let register (node : NodeId) : Op :=
      .register id ⟨.config, node, "lora", some .null, .int 1, true⟩
    let ops : List Op := [.begin ⟨1⟩ ⟨0, 0⟩, register ⟨1⟩, .markApplied id "lora" none,
      .complete id ⟨5, 0⟩, register ⟨2⟩]
    let requests := acceptedRequests (callsOn id (empty.calls ops))
    let reverts := (empty.after ops).revertData id
    ∃ t, (empty.after ops).get? id = some t ∧ t.node = ⟨1⟩ ∧
      (∀ request ∈ requests, request.node = ⟨1⟩) ∧
      (∀ change ∈ t.changes, change.node = ⟨1⟩) ∧
      reverts.length = 1 ∧ (∀ entry ∈ reverts, entry.node = ⟨1⟩) ∧ t.summary.node = ⟨1⟩ := by
  intro id register ops requests reverts
  have hkept : ((empty.after ops).get? id).map Transaction.node = some ⟨1⟩ := by decide +kernel
  have hrequests : ∀ request ∈ requests, request.node = ⟨1⟩ := by decide +kernel
  have hlength : reverts.length = 1 := by decide +kernel
  obtain ⟨t, hstored, hnode⟩ := Option.map_eq_some_iff.mp hkept
  obtain ⟨-, -, -, hiff⟩ := one_node_iff ops id t hstored
  rw [hnode] at hiff
  obtain ⟨hchanges, hreverts, hsummary⟩ := hiff.mpr hrequests
  exact ⟨t, hstored, hnode, hrequests, hchanges, hlength, hreverts, hsummary⟩

/-- A transaction for one node takes a change for another one, and would undo it there. -/
theorem one_node_other_node :
    let id : TransactionId := .generate ⟨1⟩ 1
    let ops : List Op := [.begin ⟨1⟩ ⟨0, 0⟩,
      .register id ⟨.config, ⟨2⟩, "lora", some (.int 0), .int 1, true⟩,
      .markApplied id "lora" (some 7)]
    ∃ t, (empty.after ops).get? id = some t ∧ t.node = ⟨1⟩ ∧ t.summary.node = ⟨1⟩ ∧
      (∃ change ∈ t.changes, change.node ≠ t.node) ∧
      ∃ entry ∈ (empty.after ops).revertData id, entry.node ≠ t.node := by
  intro id ops
  have hkept : ((empty.after ops).get? id).map
      (fun t => (t.node, t.changes.map Change.node)) = some (⟨1⟩, [⟨2⟩]) := by
    decide +kernel
  have hreverts : ((empty.after ops).revertData id).map RevertEntry.node = [⟨2⟩] := by
    decide +kernel
  obtain ⟨t, hstored, hnodes⟩ := Option.map_eq_some_iff.mp hkept
  obtain ⟨hnode, hchanges⟩ := Prod.mk.inj hnodes
  obtain ⟨change, hchange, hother⟩ := List.mem_map.mp (hchanges ▸ List.mem_singleton_self _)
  obtain ⟨entry, hentry, hundone⟩ := List.mem_map.mp (hreverts ▸ List.mem_singleton_self _)
  refine ⟨t, hstored, hnode, hnode, ⟨change, hchange, ?_⟩, entry, hentry, ?_⟩
  · rw [hother, hnode]
    decide
  · rw [hundone, hnode]
    decide

end Registry

end RadioAdmin
