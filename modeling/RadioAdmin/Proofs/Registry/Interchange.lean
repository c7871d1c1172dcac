import RadioAdmin.Proofs.Registry.Action

/-!
# Operations that do not see each other

Operations on two transactions can be called in either order, and so can two marks of one
transaction for different keys, or a mark and a registration for another key: they end in the same
registry, and each is answered the same. Two runs that differ in the order of such operations alone
end in the same registry, so it does not matter in which order different keys are acknowledged.
-/
namespace RadioAdmin.Registry

/-- Two operations that end in the same registry and are answered the same in either order. -/
structure Interchange (registry : Registry) (a b : Op) : Prop where
  state : ((registry.step a).1.step b).1 = ((registry.step b).1.step a).1
  first : ((registry.step b).1.step a).2 = (registry.step a).2
  second : ((registry.step a).1.step b).2 = (registry.step b).2

theorem Interchange.symm {registry : Registry} {a b : Op} (h : Interchange registry a b) :
    Interchange registry b a :=
  ⟨h.state.symm, h.second, h.first⟩

theorem get?_step_on_of_ne (registry : Registry) {id other : TransactionId} (h : other ≠ id)
    (action : Action) : (registry.step (action.on other)).1.get? id = registry.get? id := by
  rw [step_on, get?_update, if_neg h]

theorem interchange_of_ne (registry : Registry) {id other : TransactionId} (h : id ≠ other)
    (a b : Action) : Interchange registry (a.on id) (b.on other) where
  state := by
    simp only [step_on]
    exact update_comm registry h _ _
  first := by
    have hget := get?_step_on_of_ne registry h.symm b
    rw [step_on, hget, step_on registry id a]
  second := by
    have hget := get?_step_on_of_ne registry h a
    rw [step_on, hget, step_on registry other b]

/-- Two actions that leave a transaction the same and are answered the same in either order. -/
structure Action.Interchange (id : TransactionId) (a b : Action) (t : Transaction) : Prop where
  state : (b.act id (a.act id t).1).1 = (a.act id (b.act id t).1).1
  first : (a.act id (b.act id t).1).2 = (a.act id t).2
  second : (b.act id (a.act id t).1).2 = (b.act id t).2

theorem answer_step_on (registry : Registry) (id : TransactionId) (a b : Action) :
    ((registry.step (a.on id)).1.step (b.on id)).2 =
      b.answer id ((registry.get? id).map fun t => (a.act id t).1) := by
  rw [step_on, step_on, get?_update, if_pos rfl]

theorem interchange_of_act (registry : Registry) {id : TransactionId} {a b : Action}
    (h : ∀ t, a.Interchange id b t) : Interchange registry (a.on id) (b.on id) where
  state := by
    simp only [step_on, update_update]
    congr 1
    funext t
    exact (h t).state
  first := by
    rw [answer_step_on, step_on]
    cases registry.get? id with
    | none => rfl
    | some t => exact (h t).first
  second := by
    rw [answer_step_on, step_on]
    cases registry.get? id with
    | none => rfl
    | some t => exact (h t).second

section

variable {key other : String} {t : Transaction}

theorem resolved_eq (key : String) (resolve : Change → Change) (t : Transaction) :
    resolved key resolve t = { t with
      changes :=
        (Transaction.replaceFirst? (Change.isPendingFor key) resolve t.changes).getD t.changes } := by
  rw [resolved, Transaction.resolveFirst?]
  cases Transaction.replaceFirst? (Change.isPendingFor key) resolve t.changes <;> rfl

theorem isActive_resolved (key : String) (resolve : Change → Change) (t : Transaction) :
    (resolved key resolve t).isActive = t.isActive := by
  rw [resolved_eq]

/-- No change is pending for two keys. -/
theorem isPendingFor_of_ne (h : key ≠ other) {change : Change}
    (hpending : change.isPendingFor key = true) : change.isPendingFor other = false := by
  obtain ⟨-, hkey⟩ := Change.isPendingFor_iff.mp hpending
  rw [← Bool.not_eq_true, Change.isPendingFor_iff, hkey]
  exact fun hother => h hother.2

/-- The first pending change of a key is the same one after a mark of another key. -/
theorem resolveFirst?_resolved (h : key ≠ other) (marked resolution : Resolution)
    (t : Transaction) :
    (resolved key marked.resolve t).resolveFirst? other resolution.resolve =
      (t.resolveFirst? other resolution.resolve).map (resolved key marked.resolve) := by
  have hmarked : ∀ change : Change, change.isPendingFor key = true →
      change.isPendingFor other = false ∧ (marked.resolve change).isPendingFor other = false :=
    fun change hkey => ⟨isPendingFor_of_ne h hkey, change.isPendingFor_resolve other marked⟩
  have hresolved : ∀ change : Change, change.isPendingFor other = true →
      (resolution.resolve change).isPendingFor key = false :=
    fun change _ => change.isPendingFor_resolve key resolution
  have hreplaced := Transaction.replaceFirst?_replaced hmarked hresolved t.changes
  simp only [resolved_eq, Transaction.resolveFirst?]
  rw [hreplaced, Option.map_map, Option.map_map]
  congr 1
  funext changes
  rw [Function.comp_apply, Function.comp_apply, resolved_eq]

/-- The first pending change of a key is the same one after a registration for another key. -/
theorem resolveFirst?_concat (resolve : Change → Change) (t : Transaction) {change : Change}
    (h : change.key ≠ key) :
    { t with changes := t.changes ++ [change] }.resolveFirst? key resolve =
      (t.resolveFirst? key resolve).map fun u =>
        { u with changes := u.changes ++ [change] } := by
  have hother : change.isPendingFor key = false := by
    rw [← Bool.not_eq_true, Change.isPendingFor_iff]
    exact fun hpending => h hpending.2
  rw [Transaction.resolveFirst?, Transaction.resolveFirst?,
    Transaction.replaceFirst?_concat t.changes hother, Option.map_map, Option.map_map]
  rfl

end

/-- An action of active transactions that a mark of the key does not see, and that does not see
it. -/
structure Action.PassesBy (key : String) (action : Action) : Prop where
  taken : ∀ t, action.isTakenBy t = t.isActive
  active : ∀ t, (action.perform t).1.isActive = t.isActive
  resolve : ∀ (resolution : Resolution) (t : Transaction),
    (action.perform t).1.resolveFirst? key resolution.resolve =
      (t.resolveFirst? key resolution.resolve).map fun u => (action.perform u).1
  answer : ∀ (resolution : Resolution) (t : Transaction),
    (action.perform (resolved key resolution.resolve t)).2 = (action.perform t).2

theorem passesBy_mark {key other : String} (h : key ≠ other) (resolution : Resolution) :
    (Action.mark other resolution).PassesBy key where
  taken _ := rfl
  active := isActive_resolved other resolution.resolve
  resolve marked t := resolveFirst?_resolved h.symm resolution marked t
  answer marked t := by
    rw [Action.perform, Action.perform, resolveFirst?_resolved h, Option.isSome_map]

theorem passesBy_register {key : String} (request : ChangeRequest) (h : key ≠ request.key) :
    (Action.register request).PassesBy key where
  taken _ := rfl
  active _ := rfl
  resolve resolution t := resolveFirst?_concat resolution.resolve t h.symm
  answer _ _ := rfl

theorem Action.PassesBy.perform_resolved {key : String} {action : Action}
    (h : action.PassesBy key) (resolution : Resolution) (t : Transaction) :
    (action.perform (resolved key resolution.resolve t)).1 =
      resolved key resolution.resolve (action.perform t).1 := by
  rw [resolved, resolved, h.resolve]
  cases t.resolveFirst? key resolution.resolve <;> rfl

theorem Action.PassesBy.interchange {key : String} {action : Action} (h : action.PassesBy key)
    (id : TransactionId) (resolution : Resolution) (t : Transaction) :
    (Action.mark key resolution).Interchange id action t := by
  cases hactive : t.isActive with
  | false =>
    have hmark := act_of_not_taken id (.mark key resolution) hactive
    have haction := act_of_not_taken id action ((h.taken t).trans hactive)
    constructor <;> simp only [hmark, haction]
  | true =>
    have hmark := act_of_taken id (.mark key resolution) hactive
    have haction := act_of_taken id action ((h.taken t).trans hactive)
    have hresolved : (resolved key resolution.resolve t).isActive = true :=
      (isActive_resolved ..).trans hactive
    have hactionNext := act_of_taken id action ((h.taken _).trans hresolved)
    have hmarkNext :=
      act_of_taken id (.mark key resolution) ((h.active t).trans hactive)
    rw [perform] at hmark hmarkNext
    constructor
    · rw [hmark, haction, hactionNext, hmarkNext, h.perform_resolved]
    · rw [hmark, haction, hmarkNext, h.resolve, Option.isSome_map]
    · rw [hmark, haction, hactionNext, h.answer]

/-- A mark of one key and an action that it does not see. -/
theorem interchange_mark (registry : Registry) (id : TransactionId) {key : String}
    (resolution : Resolution) {action : Action} (h : action.PassesBy key) :
    Interchange registry (resolution.mark id key) (action.on id) :=
  interchange_of_act registry (h.interchange id resolution)

/-- The key of the change that an operation resolves. -/
def Op.markedKey? : Op → Option String
  | .markApplied _ key _ | .markFailed _ key _ => some key
  | _ => none

/-- The key that a registration or a mark is for. -/
def Op.key? : Op → Option String
  | .register _ request => some request.key
  | .markApplied _ key _ | .markFailed _ key _ => some key
  | _ => none

/-- Whether an operation is a mark and another one a mark or a registration for another key. -/
def Op.marksApartFrom (a b : Op) : Bool :=
  match a.markedKey?, b.key? with
  | some key, some other => key ≠ other
  | _, _ => false

/-- Whether the order of two operations may show. It does not for two transactions, nor for a mark
and what is for another key. -/
def Op.interferes (a b : Op) : Bool :=
  match a.target?, b.target? with
  | some id, some other => id = other && !a.marksApartFrom b && !b.marksApartFrom a
  | _, _ => true

theorem exists_mark {op : Op} {id : TransactionId} {key : String} (htarget : op.target? = some id)
    (h : op.markedKey? = some key) : ∃ resolution : Resolution, op = resolution.mark id key := by
  cases op with
  | markApplied target other packet =>
    obtain rfl := Option.some.inj htarget
    obtain rfl := Option.some.inj h
    exact ⟨.applied packet, rfl⟩
  | markFailed target other message =>
    obtain rfl := Option.some.inj htarget
    obtain rfl := Option.some.inj h
    exact ⟨.failed message, rfl⟩
  | _ => cases h

theorem exists_passesBy {op : Op} {id : TransactionId} {key other : String}
    (htarget : op.target? = some id) (h : op.key? = some other) (hne : key ≠ other) :
    ∃ action : Action, op = action.on id ∧ action.PassesBy key := by
  cases op with
  | register target request =>
    obtain rfl := Option.some.inj htarget
    obtain rfl := Option.some.inj h
    exact ⟨.register request, rfl, passesBy_register request hne⟩
  | markApplied target marked packet =>
    obtain rfl := Option.some.inj htarget
    obtain rfl := Option.some.inj h
    exact ⟨.mark marked (.applied packet), rfl, passesBy_mark hne _⟩
  | markFailed target marked message =>
    obtain rfl := Option.some.inj htarget
    obtain rfl := Option.some.inj h
    exact ⟨.mark marked (.failed message), rfl, passesBy_mark hne _⟩
  | _ => cases h

theorem interchange_of_marksApartFrom (registry : Registry) {a b : Op} {id : TransactionId}
    (ha : a.target? = some id) (hb : b.target? = some id) (h : a.marksApartFrom b = true) :
    Interchange registry a b := by
  rw [Op.marksApartFrom] at h
  split at h
  · rename_i key other hkey hother
    obtain ⟨resolution, rfl⟩ := exists_mark ha hkey
    obtain ⟨action, rfl, haction⟩ := exists_passesBy hb hother (of_decide_eq_true h)
    exact interchange_mark registry id resolution haction
  · cases h

theorem interchange_of_target (registry : Registry) {a b : Op} {id other : TransactionId}
    (ha : a.target? = some id) (hb : b.target? = some other) (h : id ≠ other) :
    Interchange registry a b := by
  obtain ⟨first, rfl⟩ := exists_action ha
  obtain ⟨second, rfl⟩ := exists_action hb
  exact interchange_of_ne registry h first second

theorem interchange_of_not_interferes (registry : Registry) {a b : Op}
    (h : a.interferes b = false) : Interchange registry a b := by
  rw [Op.interferes] at h
  split at h
  · rename_i id other ha hb
    by_cases hid : id = other
    · subst hid
      cases hfirst : a.marksApartFrom b with
      | true => exact interchange_of_marksApartFrom registry ha hb hfirst
      | false =>
        have hsecond : b.marksApartFrom a = true := by simpa [hfirst] using h
        exact (interchange_of_marksApartFrom registry hb ha hsecond).symm
    · exact interchange_of_target registry ha hb hid
  · cases h

theorem interferes_self (op : Op) : op.interferes op = true := by
  cases op <;> simp [Op.interferes, Op.target?, Op.marksApartFrom, Op.markedKey?, Op.key?]

/-- An operation can be called before the ones ahead of it that it does not interfere with. -/
theorem after_move (registry : Registry) {op : Op} {front : List Op} (back : List Op)
    (h : ∀ other ∈ front, op.interferes other = false) :
    registry.after (front ++ op :: back) = registry.after (op :: (front ++ back)) := by
  induction front generalizing registry with
  | nil => rfl
  | cons first rest ih =>
    obtain ⟨hfirst, hrest⟩ := List.forall_mem_cons.mp h
    have hswap := (interchange_of_not_interferes registry hfirst).state
    calc registry.after (first :: rest ++ op :: back)
        = (registry.step first).1.after (op :: (rest ++ back)) := ih _ hrest
      _ = ((registry.step op).1.step first).1.after (rest ++ back) := by rw [after_cons, hswap]
      _ = registry.after (op :: (first :: rest ++ back)) := rfl

theorem filter_of_cons {keeps : Op → Bool} {op : Op} {rest front back : List Op}
    (hnew : op ∉ front) (h : (op :: rest).filter keeps = (front ++ op :: back).filter keeps) :
    rest.filter keeps = (front ++ back).filter keeps := by
  rw [List.filter_append] at h ⊢
  cases hop : keeps op with
  | false =>
    rwa [List.filter_cons_of_neg (by simp [hop]), List.filter_cons_of_neg (by simp [hop])] at h
  | true =>
    rw [List.filter_cons_of_pos hop, List.filter_cons_of_pos hop] at h
    cases hfront : front.filter keeps with
    | nil =>
      rw [hfront] at h
      exact (List.cons.inj h).2
    | cons first others =>
      rw [hfront] at h
      have hmem : first ∈ front.filter keeps := hfront ▸ List.mem_cons_self
      rw [← (List.cons.inj h).1] at hmem
      exact absurd (List.mem_of_mem_filter hmem) hnew

/-- Two runs end in the same registry when what interferes with an operation comes in the same order
in both, for each operation of them. -/
theorem after_eq_of_filter_eq (registry : Registry) {ops others : List Op}
    (h : ∀ op ∈ ops ++ others, ops.filter op.interferes = others.filter op.interferes) :
    registry.after ops = registry.after others := by
  induction ops generalizing registry others with
  | nil =>
    cases others with
    | nil => rfl
    | cons op rest =>
      have hop := h op List.mem_cons_self
      rw [List.filter_cons_of_pos (interferes_self op)] at hop
      cases hop
  | cons op rest ih =>
    -- The operation is also the first one in the other run that anything of it interferes with.
    have hop := h op List.mem_cons_self
    rw [List.filter_cons_of_pos (interferes_self op), eq_comm] at hop
    obtain ⟨front, back, rfl, hfront, -, -⟩ := List.filter_eq_cons_iff.mp hop
    have hapart : ∀ other ∈ front, op.interferes other = false := fun other hother =>
      Bool.eq_false_iff.mpr (hfront other hother)
    have hnew : op ∉ front := fun hmem => hfront op hmem (interferes_self op)
    rw [after_move registry back hapart, after_cons, after_cons]
    refine ih _ fun other hother => filter_of_cons hnew (h other ?_)
    rw [List.mem_append, List.mem_append] at hother
    rw [List.mem_append, List.mem_append, List.mem_cons, List.mem_cons]
    tauto

/-- What a node tells of a key of a transaction. -/
structure Acknowledgment where
  id : TransactionId
  key : String
  resolution : Resolution

namespace Acknowledgment

/-- The mark that an acknowledgment calls for. -/
def op (acknowledgment : Acknowledgment) : Op :=
  acknowledgment.resolution.mark acknowledgment.id acknowledgment.key

def isFor (id : TransactionId) (key : String) (acknowledgment : Acknowledgment) : Bool :=
  acknowledgment.id = id && acknowledgment.key = key

theorem interferes_op (acknowledgment other : Acknowledgment) :
    acknowledgment.op.interferes other.op = other.isFor acknowledgment.id acknowledgment.key := by
  obtain ⟨id, key, resolution⟩ := acknowledgment
  obtain ⟨otherId, otherKey, otherResolution⟩ := other
  cases resolution <;> cases otherResolution <;>
    simp [op, isFor, Resolution.mark, Op.interferes, Op.target?, Op.marksApartFrom, Op.markedKey?,
      Op.key?, eq_comm]

end Acknowledgment

/-- Acknowledgments can come in any order that keeps the order of those for one key. -/
theorem after_acknowledgments (registry : Registry) {acknowledgments others : List Acknowledgment}
    (h : ∀ id key, acknowledgments.filter (Acknowledgment.isFor id key) =
      others.filter (Acknowledgment.isFor id key)) :
    registry.after (acknowledgments.map Acknowledgment.op) =
      registry.after (others.map Acknowledgment.op) := by
  refine after_eq_of_filter_eq registry fun op hop => ?_
  rw [← List.map_append] at hop
  obtain ⟨acknowledgment, -, rfl⟩ := List.mem_map.mp hop
  have hinterferes : acknowledgment.op.interferes ∘ Acknowledgment.op =
      Acknowledgment.isFor acknowledgment.id acknowledgment.key :=
    funext fun other => acknowledgment.interferes_op other
  rw [List.filter_map, List.filter_map, hinterferes, h]

/-- In every registry, operations on two transactions can be called in either order, and so can, on
one transaction, two marks of different keys, or a mark of a key and a registration for another
one. So acknowledgments that come in another order, other than for one key, lead to the same
registry and leave the same to be undone. -/
theorem independent_operations (registry : Registry) :
    (∀ a b id other, Op.target? a = some id → Op.target? b = some other → id ≠ other →
      Interchange registry a b) ∧
    (∀ id key other, ∀ first second : Resolution, key ≠ other →
      Interchange registry (first.mark id key) (second.mark id other)) ∧
    (∀ id key request, ∀ resolution : Resolution, key ≠ request.key →
      Interchange registry (resolution.mark id key) (.register id request)) ∧
    ∀ acknowledgments others : List Acknowledgment,
      (∀ id key, acknowledgments.filter (Acknowledgment.isFor id key) =
        others.filter (Acknowledgment.isFor id key)) →
      let next := registry.after (acknowledgments.map Acknowledgment.op)
      let otherNext := registry.after (others.map Acknowledgment.op)
      next = otherNext ∧ ∀ id, next.revertData id = otherNext.revertData id := by
  refine ⟨fun _ _ _ _ => interchange_of_target registry, fun id key other first second hne => ?_,
    fun id key request resolution hne => ?_, fun acknowledgments others h => ?_⟩
  · exact interchange_mark registry id first (passesBy_mark hne second)
  · exact interchange_mark registry id resolution (passesBy_register request hne)
  · have hnext := after_acknowledgments registry h
    exact ⟨hnext, fun id => by rw [hnext]⟩

/-- Two transactions side by side, one of which has changes for two keys. -/
theorem independent_operations_two_keys :
    let id : TransactionId := .generate ⟨1⟩ 1
    let other : TransactionId := .generate ⟨2⟩ 2
    let request (key : String) : ChangeRequest := ⟨.config, ⟨1⟩, key, some .null, .int 1, true⟩
    let registry := empty.after [.begin ⟨1⟩ ⟨0, 0⟩, .begin ⟨2⟩ ⟨0, 0⟩, .register id (request "lora"),
      .register id (request "power"), .register other (request "lora")]
    let lora : Acknowledgment := ⟨id, "lora", .applied (some 7)⟩
    let power : Acknowledgment := ⟨id, "power", .applied none⟩
    let next := registry.after [lora.op, power.op]
    Interchange registry (.abort id ⟨5, 0⟩) (.markApplied other "lora" none) ∧
    Interchange registry (.markApplied id "lora" none) (.markFailed id "power" "rejected") ∧
    Interchange registry (.markFailed id "lora" "rejected") (.register id (request "power")) ∧
    next = registry.after [power.op, lora.op] ∧
    (next.revertData id).map RevertEntry.key = ["lora", "power"] := by
  intro id other request registry lora power next
  obtain ⟨htransactions, hmarks, hregistration, hacknowledgments⟩ :=
    independent_operations registry
  have hid : id ≠ other := by decide +kernel
  have hkey : "lora" ≠ "power" := by decide
  have hfilter : ∀ target key, [lora, power].filter (Acknowledgment.isFor target key) =
      [power, lora].filter (Acknowledgment.isFor target key) := by
    intro target key
    have hnot : ¬ ("lora" = key ∧ "power" = key) := fun ⟨hl, hp⟩ => hkey (hl.trans hp.symm)
    by_cases hl : "lora" = key <;> by_cases hp : "power" = key <;>
      simp_all [lora, power, Acknowledgment.isFor, List.filter_cons]
  exact ⟨htransactions _ _ id other rfl rfl hid, hmarks id _ _ (.applied none) (.failed _) hkey,
    hregistration id _ _ (.failed _) hkey, (hacknowledgments _ _ hfilter).1, by decide +kernel⟩

end RadioAdmin.Registry
