import Mathlib.Data.List.Chain
import Mathlib.Logic.Function.Basic
import RadioAdmin.Proofs.Registry.Nodes

/-!
# What revert data restores

Revert entries stand in the order in which their changes were registered, and whoever writes several
of one slot leaves the last one there. In the order of registration that is the entry of the last
applied change, which undoes this one alone. From the last entry to the first it is the entry of the
first applied change, so everything is undone.
-/
namespace RadioAdmin

/-- The place of one setting in the mesh. -/
structure Slot where
  kind : ChangeKind
  node : NodeId
  key : String
  deriving DecidableEq, Repr

def Change.slot (change : Change) : Slot := ⟨change.kind, change.node, change.key⟩

namespace RevertEntry

def slot (entry : RevertEntry) : Slot := ⟨entry.kind, entry.node, entry.key⟩

/-- What the slots hold after entries have been written to them one after the other. -/
def writeAll (entries : List RevertEntry) (held : Slot → Value) : Slot → Value :=
  entries.foldl (fun held entry => Function.update held entry.slot entry.previous) held

theorem writeAll_concat (entries : List RevertEntry) (entry : RevertEntry) (held : Slot → Value) :
    writeAll (entries ++ [entry]) held =
      Function.update (writeAll entries held) entry.slot entry.previous :=
  List.foldl_concat ..

/-- The last entry of a slot counts. -/
theorem writeAll_eq (entries : List RevertEntry) (held : Slot → Value) (slot : Slot) :
    writeAll entries held slot =
      (((entries.filter fun entry => entry.slot = slot).map previous).getLast?).getD
        (held slot) := by
  induction entries using List.reverseRecOn with
  | nil => rfl
  | append_singleton entries entry ih =>
    rw [writeAll_concat, List.filter_append, List.filter_singleton, List.map_append]
    by_cases h : entry.slot = slot
    · subst h
      simp
    · rw [Function.update_of_ne (Ne.symm h), ih]
      simp [h]

end RevertEntry

namespace Transaction

variable (t : Transaction) (slot : Slot)

/-- The changes of a slot that the node has acknowledged, in the order of registration. -/
def appliedTo : List Change :=
  t.changes.filter fun change => change.status = .applied ∧ change.slot = slot

/-- Whether each change starts from what the one before it has set. -/
def FollowsOn (changes : List Change) : Prop :=
  changes.IsChain fun earlier later => later.previous = some earlier.desired

/-- The revert entries of a slot are the known originals of its applied changes. -/
theorem previous_revertData :
    (t.revertData.filter fun entry => entry.slot = slot).map RevertEntry.previous =
      (t.appliedTo slot).filterMap Change.previous := by
  rw [revertData, appliedTo]
  induction t.changes with
  | nil => rfl
  | cons change rest ih =>
    by_cases happlied : change.status = .applied
    · rw [List.filter_cons_of_pos (by simpa using happlied)]
      cases hprevious : change.previous with
      | none =>
        rw [List.filterMap_cons_none (by rw [hprevious]; rfl), ih]
        by_cases hslot : change.slot = slot <;> simp [happlied, hslot, hprevious]
      | some previous =>
        rw [List.filterMap_cons_some (by rw [hprevious]; rfl)]
        by_cases hslot : change.slot = slot
        · have hentry : (⟨change.kind, change.key, previous, change.node⟩ : RevertEntry).slot =
              slot := hslot
          simp [happlied, hslot, hprevious, hentry, ih]
        · have hentry : (⟨change.kind, change.key, previous, change.node⟩ : RevertEntry).slot ≠
              slot := hslot
          simp [happlied, hslot, hentry, ih]
    · rw [List.filter_cons_of_neg (by simpa using happlied), ih]
      simp [happlied]

/-- In the order of registration the entry of the last applied change counts. -/
theorem writeAll_revertData (held : Slot → Value) :
    RevertEntry.writeAll t.revertData held slot =
      (((t.appliedTo slot).filterMap Change.previous).getLast?).getD (held slot) := by
  rw [RevertEntry.writeAll_eq, previous_revertData]

/-- In the opposite order the entry of the first applied change counts. -/
theorem writeAll_reverse_revertData (held : Slot → Value) :
    RevertEntry.writeAll t.revertData.reverse held slot =
      (((t.appliedTo slot).filterMap Change.previous).head?).getD (held slot) := by
  rw [RevertEntry.writeAll_eq, List.filter_reverse, List.map_reverse, previous_revertData,
    List.getLast?_reverse]

end Transaction

namespace Registry

open Transaction (FollowsOn)

variable {registry : Registry} {id : TransactionId} {t : Transaction}

/-- Where the original of every applied change is known, the revert data written backwards leaves
each slot with what it held before its first applied change, and every other slot alone. Written in
the order in which it is returned, it leaves a slot with the original of its last applied change:
where changes follow on from each other, that is what the change before the last one had set. -/
theorem revertData_backwards (hget : registry.get? id = some t)
    (hknown : ∀ change ∈ t.changes, change.status = .applied → change.previous.isSome = true)
    (held : Slot → Value) (slot : Slot) :
    let restored := RevertEntry.writeAll (registry.revertData id).reverse held slot
    let written := RevertEntry.writeAll (registry.revertData id) held slot
    (t.appliedTo slot = [] → restored = held slot ∧ written = held slot) ∧
    (∀ first rest, t.appliedTo slot = first :: rest → first.previous = some restored) ∧
    (∀ front last, t.appliedTo slot = front ++ [last] → last.previous = some written) ∧
    (FollowsOn (t.appliedTo slot) → ∀ front before last,
      t.appliedTo slot = front ++ [before, last] → written = before.desired) := by
  intro restored written
  have hrestored : restored =
      (((t.appliedTo slot).filterMap Change.previous).head?).getD (held slot) := by
    rw [← Transaction.writeAll_reverse_revertData, ← revertData_of_get? hget]
  have hwritten : written =
      (((t.appliedTo slot).filterMap Change.previous).getLast?).getD (held slot) := by
    rw [← Transaction.writeAll_revertData, ← revertData_of_get? hget]
  have hsome : ∀ change ∈ t.appliedTo slot, ∃ previous, change.previous = some previous := by
    intro change hchange
    obtain ⟨hmem, hmeets⟩ := List.mem_filter.mp hchange
    exact Option.isSome_iff_exists.mp (hknown change hmem (of_decide_eq_true hmeets).1)
  have hlast : ∀ front last, t.appliedTo slot = front ++ [last] →
      last.previous = some written := by
    intro front last happlied
    obtain ⟨previous, hprevious⟩ := hsome last (by rw [happlied]; simp)
    rw [hwritten, happlied, List.filterMap_append, List.filterMap_cons_some hprevious]
    simp [hprevious]
  refine ⟨fun happlied => ?_, fun first rest happlied => ?_, hlast,
    fun hfollows front before last happlied => ?_⟩
  · rw [hrestored, hwritten, happlied]
    exact ⟨rfl, rfl⟩
  · obtain ⟨previous, hprevious⟩ := hsome first (by rw [happlied]; simp)
    rw [hrestored, happlied, List.filterMap_cons_some hprevious, hprevious]
    rfl
  · have hsplit : t.appliedTo slot = (front ++ [before]) ++ [last] := by
      rw [happlied, List.append_assoc]
      rfl
    have hstarts : last.previous = some before.desired := by
      rw [FollowsOn, happlied] at hfollows
      exact (List.isChain_append.mp hfollows).2.1.rel
    exact Option.some.inj ((hlast _ _ hsplit).symm.trans hstarts)

/-- Two changes of one slot that are applied, with one that fails between them, and a change of
another slot. -/
theorem revertData_backwards_between :
    let id : TransactionId := .generate ⟨1⟩ 1
    let register (key : String) (previous desired : Value) : Op :=
      .register id ⟨.config, ⟨1⟩, key, some previous, desired, false⟩
    let registry := empty.after [.begin ⟨1⟩ ⟨0, 0⟩, register "lora" (.int 3) (.int 5),
      register "power" .null (.int 1), register "lora" (.int 5) (.int 9),
      register "lora" (.int 5) (.int 7), .markApplied id "lora" none,
      .markFailed id "lora" "timeout", .markApplied id "lora" none]
    let slot : Slot := ⟨.config, ⟨1⟩, "lora"⟩
    ∃ t, registry.get? id = some t ∧
      t.changes.map Change.status = [.applied, .pending, .failed, .applied] ∧
      (∀ change ∈ t.changes, change.status = .applied → change.previous.isSome = true) ∧
      FollowsOn (t.appliedTo slot) ∧
      ∀ held, RevertEntry.writeAll (registry.revertData id).reverse held slot = .int 3 ∧
        RevertEntry.writeAll (registry.revertData id) held slot = .int 5 := by
  intro id register registry slot
  let change (key : String) (previous desired : Value) (status : ChangeStatus)
    (message : Option String) : Change :=
      ⟨.config, ⟨1⟩, key, some previous, desired, status, message, none⟩
  let first := change "lora" (.int 3) (.int 5) .applied none
  let last := change "lora" (.int 5) (.int 7) .applied none
  let t : Transaction := ⟨id, ⟨1⟩, [first, change "power" .null (.int 1) .pending none,
    change "lora" (.int 5) (.int 9) .failed (some "timeout"), last], true, false, false, ⟨0, 0⟩,
    none⟩
  have hget : registry.get? id = some t := rfl
  have hknown : ∀ change ∈ t.changes, change.status = .applied →
      change.previous.isSome = true := by simp [t, first, last, change]
  have happlied : t.appliedTo slot = [first, last] := rfl
  have hfollows : FollowsOn (t.appliedTo slot) := by
    rw [happlied, FollowsOn]
    exact List.isChain_pair.mpr rfl
  refine ⟨t, hget, rfl, hknown, hfollows, fun held => ?_⟩
  obtain ⟨-, hfirst, -, hlast⟩ := revertData_backwards hget hknown held slot
  have hprevious := (Option.some.inj (hfirst first [last] happlied)).symm
  exact ⟨hprevious, hlast hfollows [] first last happlied⟩

/-- Written in the order in which they are returned, the entries of two changes of one slot leave
what the first change had set. -/
theorem revertData_in_order_two_changes :
    let id : TransactionId := .generate ⟨1⟩ 1
    let register (previous desired : Value) : Op :=
      .register id ⟨.config, ⟨1⟩, "lora", some previous, desired, false⟩
    let registry := empty.after [.begin ⟨1⟩ ⟨0, 0⟩, register (.int 3) (.int 5),
      register (.int 5) (.int 7), .markApplied id "lora" none, .markApplied id "lora" none]
    let slot : Slot := ⟨.config, ⟨1⟩, "lora"⟩
    ∃ t first rest, registry.get? id = some t ∧
      (∀ change ∈ t.changes, change.status = .applied → change.previous.isSome = true) ∧
      (∀ slot, FollowsOn (t.appliedTo slot)) ∧ t.appliedTo slot = first :: rest ∧
      ∀ held, some (RevertEntry.writeAll (registry.revertData id) held slot) ≠ first.previous := by
  intro id register registry slot
  let change (previous desired : Value) : Change :=
    ⟨.config, ⟨1⟩, "lora", some previous, desired, .applied, none, none⟩
  let first := change (.int 3) (.int 5)
  let last := change (.int 5) (.int 7)
  let t : Transaction := ⟨id, ⟨1⟩, [first, last], true, false, false, ⟨0, 0⟩, none⟩
  refine ⟨t, first, [last], rfl, by simp [t, first, last, change], fun other => ?_, rfl, ?_⟩
  · by_cases h : slot = other
    · subst h
      exact List.isChain_pair.mpr rfl
    · have hnone : t.appliedTo other = [] := by
        simpa [Transaction.appliedTo, Change.slot, t, first, last, change] using h
      rw [hnone]
      exact List.isChain_nil
  · intro held h
    cases h

end Registry

end RadioAdmin
