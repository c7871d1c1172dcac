import RadioAdmin.Proofs.Compare.Configuration
import RadioAdmin.Proofs.Registry.Basic

/-!
# Changes that are skipped

A new change is skipped when the value on the node meets the desired one already. The two are
compared as configurations under the key of the change, so that a value which holds this key
among others is compared, as a whole, with its own part under the key.
-/
namespace RadioAdmin.Registry

open Compare (readAsSection? compareUnwrapped)
open Value (same AllFinite)

theorem initialStatus_eq_skipped_iff {request : ChangeRequest} {previous : Value}
    (hprevious : request.previous = some previous) :
    initialStatus request = .skipped ↔ request.skipIfUnchanged = true ∧
      Compare.compareConfigs request.desired previous (some request.key) true = [] := by
  rw [initialStatus, hprevious]
  dsimp only
  split
  · rename_i h
    rw [Bool.and_eq_true, List.isEmpty_iff] at h
    exact iff_of_true rfl h
  · rename_i h
    rw [Bool.and_eq_true, List.isEmpty_iff] at h
    exact iff_of_false (by decide) h

/-- A value that is on the node already is pending when it holds the key of the change among
others, with a section that lacks this key. -/
theorem initialStatus_of_lacking_section {request : ChangeRequest} {previous : Value}
    {fields : List (String × Value)} (hprevious : request.previous = some previous)
    (hsame : same request.desired previous = true) (hfinite : AllFinite request.desired)
    (hw : Value.WellFormed request.desired)
    (hsection : readAsSection? previous request.key = some (.map fields)) (hset : fields ≠ [])
    (hown : Fields.has fields request.key = false) : initialStatus request = .pending := by
  rw [← initialStatus_ne_skipped_iff, ne_eq, initialStatus_eq_skipped_iff hprevious,
    Compare.compareConfigs_of_same request.key hsame hfinite]
  rintro ⟨-, hmet⟩
  exact Compare.compareUnwrapped_section_ne_nil request.key hw hsame hsection hset hown
    (hmet _ hsection)

/-- A change to a value that is the same as the one on the node is registered in every active
transaction. When skipping is asked for, it is skipped exactly if no section of the value
stands for the whole of it, or the one that does meets the whole; otherwise it is pending. -/
theorem register_same (registry : Registry) (id : TransactionId) (request : ChangeRequest)
    (transaction : Transaction) (previous : Value)
    (hactive : registry.active id = .ok transaction)
    (hprevious : request.previous = some previous)
    (hsame : same request.desired previous = true) (hfinite : AllFinite request.desired) :
    ∃ next change, registry.register id request = .ok (next, change) ∧
      (change.status = .skipped ↔ request.skipIfUnchanged = true ∧
        ∀ contents, readAsSection? previous request.key = some contents →
          compareUnwrapped request.desired contents request.key true = []) ∧
      (change.status = .pending ↔ change.status ≠ .skipped) := by
  refine ⟨_, _, register_of_active request hactive, ?_, (initialStatus_ne_skipped_iff request).symm⟩
  rw [← Compare.compareConfigs_of_same request.key hsame hfinite]
  exact initialStatus_eq_skipped_iff hprevious

theorem register_same_envelope :
    let stored : Value := .map [("lora", .map [("region", .int 1)])]
    let request : ChangeRequest := ⟨.config, ⟨1⟩, "lora", some stored, stored, true⟩
    let (registry, transaction) := empty.begin ⟨1⟩ ⟨0, 0⟩
    registry.active transaction.id = .ok transaction ∧ same stored stored = true ∧
      AllFinite stored ∧
      ∃ next change, registry.register transaction.id request = .ok (next, change) ∧
        change.status = .skipped := by
  intro stored request
  have hactive := active_begin empty ⟨1⟩ ⟨0, 0⟩
  have hsame : same stored stored = true := by
    simp [stored, same, Value.sameFields, Fields.get?]
  have hfinite : AllFinite stored := by simp [stored, AllFinite, Value.AllFiniteFields]
  obtain ⟨next, change, hregister, hskipped, -⟩ :=
    register_same _ _ request _ stored hactive rfl hsame hfinite
  refine ⟨hactive, hsame, hfinite, next, change, hregister, hskipped.mpr ⟨rfl, ?_⟩⟩
  intro contents hcontents
  cases hcontents

/-- A value with the section of the key next to another one is pending, though it is on the
node already. -/
theorem register_same_two_sections :
    let stored : Value :=
      .map [("lora", .map [("region", .int 1)]), ("meta", .map [("rev", .int 4)])]
    let request : ChangeRequest := ⟨.config, ⟨1⟩, "lora", some stored, stored, true⟩
    let (registry, transaction) := empty.begin ⟨1⟩ ⟨0, 0⟩
    registry.active transaction.id = .ok transaction ∧ same stored stored = true ∧
      AllFinite stored ∧
      ∃ next change, registry.register transaction.id request = .ok (next, change) ∧
        change.status = .pending := by
  intro stored request
  have hactive := active_begin empty ⟨1⟩ ⟨0, 0⟩
  have hsame : same stored stored = true := by
    simp [stored, same, Value.sameFields, Fields.get?]
  have hfinite : AllFinite stored := by simp [stored, AllFinite, Value.AllFiniteFields]
  have hw : Value.WellFormed stored := by
    simp [stored, Value.WellFormed, Value.WellFormedFields, Fields.Distinct, Fields.names]
  have hsection : readAsSection? stored "lora" = some (.map [("region", .int 1)]) := rfl
  have hpending : initialStatus request = .pending :=
    initialStatus_of_lacking_section rfl hsame hfinite hw hsection (by simp) rfl
  exact ⟨hactive, hsame, hfinite, _, _, register_of_active request hactive, hpending⟩

end RadioAdmin.Registry
