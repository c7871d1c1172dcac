import RadioAdmin.Proofs.Fields
import RadioAdmin.Proofs.Transaction.Identifier
import RadioAdmin.Registry.Run

/-!
# What an operation makes of one transaction

The operations of a registry change one transaction in place, begin one or take some out.
What becomes of the transaction that is stored under an identifier depends on the operation
and on that transaction alone. So everything about the transactions of a registry is a matter
of one transaction at a time.
-/
namespace RadioAdmin.Registry

/-- Change a transaction if it is active and the one that is meant. -/
def changeMeant (target id : TransactionId) (change : Transaction → Transaction)
    (transaction : Transaction) : Transaction :=
  if target = id ∧ transaction.isActive = true then change transaction else transaction

/-- The first pending change of a key resolved, if there is one. -/
def resolved (key : String) (resolve : Change → Change) (transaction : Transaction) :
    Transaction :=
  (transaction.resolveFirst? key resolve).getD transaction

/-- A transaction that a cleanup up to a time keeps. -/
def unlessEnded (cutoff : Instant) (transaction : Transaction) : Option Transaction :=
  if hasEndedBy cutoff transaction then none else some transaction

/-- What an operation makes of the transaction that is stored under an identifier; none when
it takes the transaction out. -/
def Op.effect (id : TransactionId) (transaction : Transaction) : Op → Option Transaction
  | .begin _ _ => some transaction
  | .register target request =>
    some (changeMeant target id (fun transaction => { transaction with
      changes := transaction.changes ++ [request.toChange (initialStatus request)] }) transaction)
  | .markApplied target key packet =>
    some (changeMeant target id (resolved key (Change.apply packet)) transaction)
  | .markFailed target key message =>
    some (changeMeant target id (resolved key (Change.fail message)) transaction)
  | .markBeginSent target =>
    some (changeMeant target id (fun transaction => { transaction with beginSent := true })
      transaction)
  | .markCommitSent target =>
    some (changeMeant target id (fun transaction => { transaction with commitSent := true })
      transaction)
  | .complete target now => some (if target = id then transaction.finish now else transaction)
  | .abort target now =>
    some (changeMeant target id (fun transaction =>
      (transaction.failPending abortMessage).finish now) transaction)
  | .cleanupOld age now => match now.minusSeconds? age.toNat with
    | some cutoff => unlessEnded cutoff transaction
    | none => some transaction
  | .cleanupEndedBefore cutoff => unlessEnded cutoff transaction

/-- The identifier that an operation gives to a new transaction. -/
def Op.newId? (registry : Registry) : Op → Option TransactionId
  | .begin node _ => some (.generate node (registry.sequence + 1))
  | _ => none

def Op.isBegin : Op → Bool
  | .begin _ _ => true
  | _ => false

variable {registry : Registry} {id target : TransactionId} {transaction : Transaction}

theorem active_eq_ok_iff : registry.active id = .ok transaction ↔
    registry.get? id = some transaction ∧ transaction.isActive = true := by
  rw [active]
  cases h : registry.get? id with
  | none => simp
  | some stored =>
    dsimp only
    split
    · rename_i hactive
      constructor
      · intro he
        cases he
        exact ⟨rfl, hactive⟩
      · rintro ⟨he, -⟩
        rw [Option.some.inj he]
    · rename_i hinactive
      constructor
      · intro he
        cases he
      · rintro ⟨he, hactive⟩
        obtain rfl := Option.some.inj he
        exact absurd hactive hinactive

theorem get?_update (registry : Registry) (target id : TransactionId)
    (change : Transaction → Transaction) :
    (registry.update target change).get? id =
      if target = id then (registry.get? id).map change else registry.get? id := by
  rw [get?, update, Fields.get?_modify, get?]
  by_cases h : target = id
  · rw [if_pos h, if_pos (by rw [h])]
  · have ht : target.text ≠ id.text := fun he => h (TransactionId.eq_of_text he)
    rw [if_neg h, if_neg ht]

theorem get?_put (registry : Registry) (transaction : Transaction) (id : TransactionId) :
    (registry.put transaction).get? id =
      if transaction.id = id then some transaction else registry.get? id := by
  rw [get?, put, Fields.get?_insert, get?]
  by_cases h : transaction.id = id
  · rw [if_pos h, if_pos (by rw [h])]
  · have ht : transaction.id.text ≠ id.text := fun he => h (TransactionId.eq_of_text he)
    rw [if_neg h, if_neg ht]

theorem map_changeMeant_of_error {error : RegistryError} (change : Transaction → Transaction)
    (h : registry.active target = .error error) :
    (registry.get? id).map (changeMeant target id change) = registry.get? id := by
  cases hget : registry.get? id with
  | none => rfl
  | some stored =>
    rw [Option.map_some, changeMeant, if_neg]
    rintro ⟨rfl, hactive⟩
    rw [active_eq_ok_iff.mpr ⟨hget, hactive⟩] at h
    cases h

theorem map_changeMeant_of_ok (change : Transaction → Transaction)
    (h : registry.active target = .ok transaction) :
    (registry.get? id).map (changeMeant target id change) =
      if target = id then some (change transaction) else registry.get? id := by
  obtain ⟨hget, hactive⟩ := active_eq_ok_iff.mp h
  by_cases ht : target = id
  · subst ht
    rw [hget, Option.map_some, changeMeant, if_pos ⟨rfl, hactive⟩, if_pos rfl]
  · rw [if_neg ht]
    cases registry.get? id with
    | none => rfl
    | some stored => rw [Option.map_some, changeMeant, if_neg fun he => ht he.1]

/-- An update of an active transaction, by any change that does the same to it. -/
theorem get?_update_of_ok {change other : Transaction → Transaction}
    (h : registry.active target = .ok transaction) (hsame : other transaction = change transaction)
    (id : TransactionId) :
    (registry.update target other).get? id =
      (registry.get? id).map (changeMeant target id change) := by
  have hget := (active_eq_ok_iff.mp h).1
  rw [map_changeMeant_of_ok change h, get?_update]
  split
  · subst target
    rw [hget, Option.map_some, hsame]
  · rfl

theorem get?_changeActive (registry : Registry) (target id : TransactionId)
    (change : Transaction → Transaction) :
    (registry.changeActive target change).1.get? id =
      (registry.get? id).map (changeMeant target id change) := by
  rw [changeActive]
  cases h : registry.active target with
  | error error => exact (map_changeMeant_of_error change h).symm
  | ok transaction => exact get?_update_of_ok h rfl id

theorem get?_mark (registry : Registry) (target id : TransactionId) (key : String)
    (resolve : Change → Change) :
    (registry.mark target key resolve).1.get? id =
      (registry.get? id).map (changeMeant target id (resolved key resolve)) := by
  rw [mark]
  cases h : registry.active target with
  | error error => exact (map_changeMeant_of_error _ h).symm
  | ok transaction =>
    dsimp only
    cases hr : transaction.resolveFirst? key resolve with
    | some next => exact get?_update_of_ok h (by rw [resolved, hr, Option.getD_some]) id
    | none =>
      -- Nothing is pending for the key: the change that is made is the identity.
      show registry.get? id = _
      rw [map_changeMeant_of_ok _ h, resolved, hr, Option.getD_none]
      split
      · subst target
        exact (active_eq_ok_iff.mp h).1
      · rfl

/-- A new change is pending or skipped. -/
theorem initialStatus_ne_skipped_iff (request : ChangeRequest) :
    initialStatus request ≠ .skipped ↔ initialStatus request = .pending := by
  rw [initialStatus]
  split
  · split <;> decide
  · decide

theorem initialStatus_cases (request : ChangeRequest) :
    initialStatus request = .pending ∨ initialStatus request = .skipped := by
  by_cases hs : initialStatus request = .skipped
  · exact Or.inr hs
  · exact Or.inl ((initialStatus_ne_skipped_iff request).mp hs)

theorem register_of_active (request : ChangeRequest) (h : registry.active id = .ok transaction) :
    registry.register id request =
      .ok (registry.update id fun transaction =>
        { transaction with
          changes := transaction.changes ++ [request.toChange (initialStatus request)] },
        request.toChange (initialStatus request)) := by
  rw [register, h]
  rfl

theorem register_of_error (request : ChangeRequest) {error : RegistryError}
    (h : registry.active id = .error error) : registry.register id request = .error error := by
  rw [register, h]
  rfl

theorem get?_step_register (registry : Registry) (target id : TransactionId)
    (request : ChangeRequest) :
    (registry.step (.register target request)).1.get? id =
      (registry.get? id).map (changeMeant target id fun transaction => { transaction with
        changes := transaction.changes ++ [request.toChange (initialStatus request)] }) := by
  rw [step]
  cases h : registry.active target with
  | error error =>
    rw [register_of_error request h]
    exact (map_changeMeant_of_error _ h).symm
  | ok transaction =>
    rw [register_of_active request h]
    exact get?_update_of_ok h rfl id

theorem get?_step_complete (registry : Registry) (target id : TransactionId) (now : Instant) :
    (registry.step (.complete target now)).1.get? id =
      (registry.get? id).map fun transaction =>
        if target = id then transaction.finish now else transaction := by
  rw [step, complete]
  cases h : registry.get? target with
  | none =>
    show registry.get? id = _
    by_cases ht : target = id
    · rw [← ht, h, Option.map_none]
    · simp only [if_neg ht, Option.map_id']
  | some transaction =>
    show (registry.update target (·.finish now)).get? id = _
    rw [get?_update]
    by_cases ht : target = id
    · simp only [if_pos ht]
    · simp only [if_neg ht, Option.map_id']

theorem get?_step_begin {node : NodeId} {now : Instant} (id : TransactionId) :
    (registry.step (.begin node now)).1.get? id =
      if TransactionId.generate node (registry.sequence + 1) = id then
        some (.start id node now)
      else registry.get? id := by
  show (Registry.put _ (.start (.generate node (registry.sequence + 1)) node now)).get? id = _
  rw [get?_put]
  by_cases h : TransactionId.generate node (registry.sequence + 1) = id
  · subst h
    exact (if_pos rfl).trans (if_pos rfl).symm
  · exact (if_neg h).trans (if_neg h).symm

/-- A transaction is active once it has been begun. -/
theorem active_begin (registry : Registry) (node : NodeId) (now : Instant) :
    (registry.begin node now).1.active (registry.begin node now).2.id =
      .ok (registry.begin node now).2 :=
  active_eq_ok_iff.mpr ⟨(get?_step_begin _).trans (if_pos rfl), rfl⟩

theorem get?_cleanupEndedBefore (hd : Fields.Distinct registry.transactions) (cutoff : Instant)
    (id : TransactionId) :
    (registry.cleanupEndedBefore cutoff).1.get? id =
      (registry.get? id).bind (unlessEnded cutoff) := by
  show Fields.get? (registry.transactions.filter _) id.text = _
  rw [Fields.get?_filter hd, get?]
  cases Fields.get? registry.transactions id.text with
  | none => rfl
  | some transaction =>
    rw [Option.filter_some, Option.bind_some, unlessEnded]
    cases hasEndedBy cutoff transaction <;> rfl

theorem get?_cleanupOld (hd : Fields.Distinct registry.transactions) (age : UInt64)
    (now : Instant) (id : TransactionId) :
    (registry.cleanupOld age now).1.get? id =
      (registry.get? id).bind fun transaction => match now.minusSeconds? age.toNat with
        | some cutoff => unlessEnded cutoff transaction
        | none => some transaction := by
  rw [cleanupOld]
  cases now.minusSeconds? age.toNat with
  | some cutoff => exact get?_cleanupEndedBefore hd cutoff id
  | none => exact (Option.bind_fun_some _).symm

theorem changeActive_cases (registry : Registry) (target : TransactionId)
    (change : Transaction → Transaction) :
    (registry.changeActive target change).1 = registry ∨
      ∃ other, (registry.changeActive target change).1 = registry.update target other := by
  rw [changeActive]
  cases registry.active target with
  | error error => exact Or.inl rfl
  | ok transaction => exact Or.inr ⟨_, rfl⟩

theorem mark_cases (registry : Registry) (target : TransactionId) (key : String)
    (resolve : Change → Change) :
    (registry.mark target key resolve).1 = registry ∨
      ∃ other, (registry.mark target key resolve).1 = registry.update target other := by
  rw [mark]
  cases registry.active target with
  | error error => exact Or.inl rfl
  | ok transaction =>
    dsimp only
    cases transaction.resolveFirst? key resolve with
    | none => exact Or.inl rfl
    | some next => exact Or.inr ⟨_, rfl⟩

/-- The table after an operation other than a begin is the one before, or has one entry changed
in place or some taken out. -/
theorem step_cases (registry : Registry) {op : Op} (h : op.isBegin = false) :
    ((registry.step op).1 = registry ∨
      ∃ target change, (registry.step op).1 = registry.update target change) ∨
    ∃ keep, (registry.step op).1 =
      { registry with transactions := registry.transactions.filter keep } := by
  cases op with
  | begin node now => cases h
  | register target request =>
    rw [step]
    cases hr : registry.active target with
    | error error =>
      rw [register_of_error request hr]
      exact Or.inl (Or.inl rfl)
    | ok transaction =>
      rw [register_of_active request hr]
      exact Or.inl (Or.inr ⟨_, _, rfl⟩)
  | markApplied target key packet =>
    exact Or.inl ((mark_cases registry target key _).imp_right fun h => ⟨target, h⟩)
  | markFailed target key message =>
    exact Or.inl ((mark_cases registry target key _).imp_right fun h => ⟨target, h⟩)
  | markBeginSent target =>
    exact Or.inl ((changeActive_cases registry target _).imp_right fun h => ⟨target, h⟩)
  | markCommitSent target =>
    exact Or.inl ((changeActive_cases registry target _).imp_right fun h => ⟨target, h⟩)
  | complete target now =>
    rw [step, complete]
    cases registry.get? target with
    | none => exact Or.inl (Or.inl rfl)
    | some transaction => exact Or.inl (Or.inr ⟨_, _, rfl⟩)
  | abort target now =>
    exact Or.inl ((changeActive_cases registry target _).imp_right fun h => ⟨target, h⟩)
  | cleanupOld age now =>
    rw [step, cleanupOld]
    cases now.minusSeconds? age.toNat with
    | none => exact Or.inl (Or.inl rfl)
    | some cutoff => exact Or.inr ⟨_, rfl⟩
  | cleanupEndedBefore cutoff => exact Or.inr ⟨_, rfl⟩

theorem distinct_step (hd : Fields.Distinct registry.transactions) (op : Op) :
    Fields.Distinct (registry.step op).1.transactions := by
  cases hb : op.isBegin with
  | true =>
    cases op with
    | begin node now => exact Fields.distinct_insert _ _ _ hd
    | _ => cases hb
  | false =>
    rcases step_cases registry hb with (h | ⟨target, change, h⟩) | ⟨keep, h⟩
    · rw [h]
      exact hd
    · rw [h]
      exact Fields.distinct_modify _ _ hd
    · rw [h]
      exact Fields.distinct_filter _ hd

theorem sequence_step (registry : Registry) (op : Op) :
    (registry.step op).1.sequence =
      if op.isBegin then registry.sequence + 1 else registry.sequence := by
  cases hb : op.isBegin with
  | true =>
    cases op with
    | begin node now => rfl
    | _ => cases hb
  | false =>
    rw [if_neg (by decide)]
    rcases step_cases registry hb with (h | ⟨target, change, h⟩) | ⟨keep, h⟩
    · rw [h]
    · rw [h]
      rfl
    · rw [h]

/-- One operation, for the transaction of one identifier that it does not begin. -/
theorem get?_step (hd : Fields.Distinct registry.transactions) {op : Op}
    (hnew : op.newId? registry ≠ some id) :
    (registry.step op).1.get? id = (registry.get? id).bind (op.effect id) := by
  cases op with
  | begin node now =>
    have hne : TransactionId.generate node (registry.sequence + 1) ≠ id := fun he =>
      hnew (congrArg some he)
    rw [get?_step_begin, if_neg hne]
    exact (Option.bind_fun_some _).symm
  | register target request => exact (get?_step_register ..).trans (Option.map_eq_bind ..)
  | markApplied target key packet => exact (get?_mark ..).trans (Option.map_eq_bind ..)
  | markFailed target key message => exact (get?_mark ..).trans (Option.map_eq_bind ..)
  | markBeginSent target => exact (get?_changeActive ..).trans (Option.map_eq_bind ..)
  | markCommitSent target => exact (get?_changeActive ..).trans (Option.map_eq_bind ..)
  | complete target now => exact (get?_step_complete ..).trans (Option.map_eq_bind ..)
  | abort target now => exact (get?_changeActive ..).trans (Option.map_eq_bind ..)
  | cleanupOld age now => exact get?_cleanupOld hd age now id
  | cleanupEndedBefore cutoff => exact get?_cleanupEndedBefore hd cutoff id

end RadioAdmin.Registry
