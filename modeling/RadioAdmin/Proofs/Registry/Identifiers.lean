import RadioAdmin.Proofs.Registry.Ledger

/-!
# The identifiers of a run

The transactions of a run are numbered in the order of their begins, and each has its number in its
identifier. So no identifier is given out twice as long as the numbers last, a begin finds its
identifier unused, and the table of transactions grows at its end.
-/
namespace RadioAdmin.Registry

/-- The identifier that an answer gives out. -/
def Answer.begunId? : Answer → Option TransactionId
  | .begun transaction => some transaction.id
  | _ => none

/-- The identifiers that answers have given out, in order. -/
def begunIds (answers : List Answer) : List TransactionId := answers.filterMap Answer.begunId?

/-- The identifier of a transaction that is begun for a node behind some operations: its number
counts the begins up to it. -/
def idBehind (front : List Op) (node : NodeId) : TransactionId :=
  .generate node (.ofNat (begins front + 1))

variable {id : TransactionId} {t : Transaction}

theorem begunId?_step (registry : Registry) (op : Op) :
    (registry.step op).2.begunId? = op.newId? registry := by
  cases op with
  | register target request =>
    rw [step]
    cases registry.register target request <;> rfl
  | complete target now =>
    rw [step]
    cases registry.complete target now <;> rfl
  | _ => rfl

theorem begunIds_concat (registry : Registry) (ops : List Op) (op : Op) :
    begunIds (registry.run (ops ++ [op])).2 =
      begunIds (registry.run ops).2 ++ (op.newId? (registry.after ops)).toList := by
  rw [← answers_calls, calls_concat, List.map_append, answers_calls, begunIds,
    List.filterMap_append, begunIds, ← begunId?_step]
  rfl

/-- The counter wraps around with the words that it is made of. -/
theorem sequence_after (registry : Registry) (ops : List Op) :
    (registry.after ops).sequence = registry.sequence + .ofNat (begins ops) := by
  induction ops generalizing registry with
  | nil => exact (UInt64.add_zero _).symm
  | cons op rest ih =>
    rw [after_cons, ih, sequence_step, begins_cons, UInt64.ofNat_add, ← UInt64.add_assoc]
    cases hb : op.isBegin <;> simp [begins, hb]

theorem newId?_begin (front : List Op) (node : NodeId) (now : Instant) :
    (Op.begin node now).newId? (empty.after front) = some (idBehind front node) := by
  rw [Op.newId?, sequence_after, idBehind, UInt64.ofNat_add]
  congr 2
  exact congrArg (· + 1) (UInt64.zero_add _)

/-- The room for a run is room for what it starts with. -/
theorem room_of_append {front back : List Op} (h : begins (front ++ back) < UInt64.size) :
    empty.sequence.toNat + begins front < UInt64.size := by
  rw [begins_append] at h
  have hzero : empty.sequence.toNat = 0 := rfl
  omega

theorem room_concat {front : List Op} {op : Op} (h : begins (front ++ [op]) < UInt64.size) :
    (empty.after front).sequence.toNat + begins [op] < UInt64.size := by
  rw [toNat_sequence_after (room_of_append h)]
  rw [begins_append] at h
  have hzero : empty.sequence.toNat = 0 := rfl
  omega

theorem given_of_mem_begunIds {ops : List Op} (hbegins : begins ops < UInt64.size)
    (h : id ∈ begunIds (empty.run ops).2) : (empty.after ops).Given id := by
  induction ops using List.reverseRecOn with
  | nil => cases h
  | append_singleton ops op ih =>
    have hroom := room_concat hbegins
    rw [begunIds_concat, List.mem_append] at h
    rw [after_concat]
    rcases h with hold | hnew
    · have hfront : begins ops < UInt64.size := by
        rw [begins_append] at hbegins
        omega
      exact (ih hfront hold).step hroom
    · cases op with
      | begin node now =>
        obtain rfl := List.mem_singleton.mp hnew
        exact ⟨node, _, rfl, Nat.le_refl _⟩
      | _ => cases hnew

/-- What was given out before is not given out again. -/
theorem nodup_begunIds {ops : List Op} (hbegins : begins ops < UInt64.size) :
    (begunIds (empty.run ops).2).Nodup := by
  induction ops using List.reverseRecOn with
  | nil => exact List.nodup_nil
  | append_singleton ops op ih =>
    have hfront : begins ops < UInt64.size := by
      rw [begins_append] at hbegins
      omega
    have hroom := room_concat hbegins
    rw [begunIds_concat]
    cases hnew : op.newId? (empty.after ops) with
    | none => simpa using ih hfront
    | some new =>
      refine List.nodup_append.mpr ⟨ih hfront, List.pairwise_singleton _ new, ?_⟩
      rintro old hold other hother rfl
      obtain rfl := List.mem_singleton.mp hother
      exact (given_of_mem_begunIds hfront hold).not_new hroom hnew

/-- A begin finds its identifier unused and puts the transaction at the end of the table. -/
theorem step_begin_fresh {front : List Op} (node : NodeId) (now : Instant)
    (hbegins : begins (front ++ [.begin node now]) < UInt64.size) :
    let registry := empty.after front
    let begun : Transaction := .start (idBehind front node) node now
    begun.id.text ∉ Fields.names registry.transactions ∧
    (registry.step (.begin node now)).2 = .begun begun ∧
    (registry.step (.begin node now)).1.transactions =
      registry.transactions ++ [(begun.id.text, begun)] := by
  intro registry begun
  have hnew := newId?_begin front node now
  have hid : TransactionId.generate node (registry.sequence + 1) = idBehind front node :=
    Option.some.inj hnew
  have hfresh : begun.id.text ∉ Fields.names registry.transactions := by
    intro hmem
    obtain ⟨old, hold⟩ := Option.isSome_iff_exists.mp (Fields.has_iff.mpr hmem)
    have hvalid : registry.Valid := valid_empty.after (room_of_append hbegins)
    exact (hvalid.given begun.id old hold).not_new (room_concat hbegins) hnew
  refine ⟨hfresh, ?_, ?_⟩
  · show Answer.begun (.start (.generate node (registry.sequence + 1)) node now) = .begun begun
    rw [hid]
  · show Fields.insert registry.transactions
        (TransactionId.generate node (registry.sequence + 1)).text
        (.start (.generate node (registry.sequence + 1)) node now) = _
    rw [hid]
    exact Fields.insert_of_notMem begun hfresh

/-- What is stored was begun in the run, for its node and under the identifier of this begin. -/
theorem exists_begin_of_stored {ops : List Op} (hget : (empty.after ops).get? id = some t) :
    t.id = id ∧ ∃ front now back, ops = front ++ .begin t.node now :: back ∧
      t.id = idBehind front t.node := by
  induction ops using List.reverseRecOn generalizing t with
  | nil => cases hget
  | append_singleton ops op ih =>
    rw [after_concat] at hget
    rcases exists_of_get?_step (distinct_after ops) hget with
      ⟨node, now, rfl, hid, rfl⟩ | ⟨old, hold, heffect⟩
    · have hnew := newId?_begin ops node now
      exact ⟨rfl, ops, now, [], rfl, hid.trans (Option.some.inj hnew)⟩
    · obtain ⟨hid, front, now, back, rfl, hnumber⟩ := ih hold
      have hevolves := (Op.effect_spec (timed_after hold) heffect).1
      rw [hevolves.id, hevolves.node]
      refine ⟨hid, front, now, back ++ [op], ?_, hnumber⟩
      rw [List.append_assoc, List.cons_append]

/-- The text of an identifier shows the node in eight digits of hex and the number of the begin. -/
theorem text_idBehind {front : List Op} (node : NodeId) (hroom : begins front + 1 < UInt64.size) :
    (idBehind front node).text =
      "tx_" ++ String.ofList (List.leftpad 8 '0' (Nat.toDigits 16 node.number.toNat)) ++ "_" ++
        String.ofList (Nat.toDigits 10 (begins front + 1)) := by
  rw [idBehind, TransactionId.text_generate, UInt64.toNat_ofNat_of_lt' hroom]

/-- While its numbers last, a registry never gives out an identifier twice, and no begin overwrites
a transaction: it finds its identifier unused and adds one entry to the table. Every entry is a
transaction under the text of its own identifier, and was begun for its node in the run. This text
tells the node and the number of the begin. -/
theorem identifiers_never_reused (ops : List Op) (hbegins : begins ops < UInt64.size) :
    (begunIds (empty.run ops).2).Nodup ∧
    (∀ front node now back, ops = front ++ .begin node now :: back →
      let registry := empty.after front
      let begun : Transaction := .start (idBehind front node) node now
      begun.id.text ∉ Fields.names registry.transactions ∧
      (registry.step (.begin node now)).2 = .begun begun ∧
      (registry.step (.begin node now)).1.transactions =
        registry.transactions ++ [(begun.id.text, begun)] ∧
      begun.id.text =
        "tx_" ++ String.ofList (List.leftpad 8 '0' (Nat.toDigits 16 node.number.toNat)) ++ "_" ++
          String.ofList (Nat.toDigits 10 (begins front + 1))) ∧
    (∀ name t, (name, t) ∈ (empty.after ops).transactions →
      name = t.id.text ∧ ∃ front now back, ops = front ++ .begin t.node now :: back ∧
        t.id = idBehind front t.node) ∧
    (∀ node other m n,
      (TransactionId.generate node m).text = (TransactionId.generate other n).text →
        node = other ∧ m = n) := by
  refine ⟨nodup_begunIds hbegins, ?_, ?_, fun _ _ _ _ => TransactionId.eq_of_text_generate⟩
  · rintro front node now back rfl
    rw [List.append_cons, begins_append] at hbegins
    have hroom : begins (front ++ [.begin node now]) < UInt64.size := by omega
    obtain ⟨hfresh, hanswer, htable⟩ := step_begin_fresh node now hroom
    refine ⟨hfresh, hanswer, htable, text_idBehind node ?_⟩
    rwa [begins_append] at hroom
  · intro name t hmem
    have hget : (empty.after ops).get? ⟨name⟩ = some t :=
      Fields.get?_of_mem (distinct_after ops) hmem
    obtain ⟨hid, hbegin⟩ := exists_begin_of_stored hget
    exact ⟨by rw [hid], hbegin⟩

/-- A second transaction of a node gets another identifier, also when the first one is gone. -/
theorem identifiers_never_reused_cleanup :
    let first : TransactionId := ⟨"tx_deadbeef_1"⟩
    let front : List Op := [.begin ⟨0xdeadbeef⟩ ⟨0, 0⟩, .complete first ⟨5, 0⟩,
      .cleanupEndedBefore ⟨5, 0⟩]
    let ops : List Op := front ++ .begin ⟨0xdeadbeef⟩ ⟨9, 0⟩ :: [.begin ⟨7⟩ ⟨9, 0⟩]
    begins ops < UInt64.size ∧
    begunIds (empty.run ops).2 = [first, ⟨"tx_deadbeef_2"⟩, ⟨"tx_00000007_3"⟩] ∧
    (begunIds (empty.run ops).2).Nodup ∧
    (idBehind front ⟨0xdeadbeef⟩).text ∉ Fields.names (empty.after front).transactions ∧
    Fields.names (empty.after ops).transactions = ["tx_deadbeef_2", "tx_00000007_3"] := by
  intro first front ops
  have hfew : begins ops < UInt64.size := by decide
  have hids : begunIds (empty.run ops).2 = [first, ⟨"tx_deadbeef_2"⟩, ⟨"tx_00000007_3"⟩] := by
    decide +kernel
  have hnames : Fields.names (empty.after ops).transactions =
      ["tx_deadbeef_2", "tx_00000007_3"] := by decide +kernel
  obtain ⟨hdistinct, hfresh, -⟩ := identifiers_never_reused ops hfew
  exact ⟨hfew, hids, hdistinct, (hfresh front _ _ _ rfl).1, hnames⟩

end RadioAdmin.Registry
