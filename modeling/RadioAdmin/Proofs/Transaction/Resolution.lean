import RadioAdmin.Transaction.Basic

/-!
# The resolution of a pending change

A mark looks for the first pending change of its key and resolves it in its place. Everything
before that change is passed over, and everything behind it stays as it is.
-/
namespace RadioAdmin

/-- How a pending change is resolved. -/
inductive Resolution where
  | applied (packet : Option UInt32)
  | failed (message : String)
  deriving DecidableEq, Repr

namespace Resolution

def resolve : Resolution → Change → Change
  | .applied packet => Change.apply packet
  | .failed message => Change.fail message

/-- The status of what has been resolved. -/
def status : Resolution → ChangeStatus
  | .applied _ => .applied
  | .failed _ => .failed

variable (resolution : Resolution) (change : Change)

theorem status_resolve : (resolution.resolve change).status = resolution.status := by
  cases resolution <;> rfl

theorem key_resolve : (resolution.resolve change).key = change.key := by
  cases resolution <;> rfl

theorem isPending_resolve : (resolution.resolve change).isPending = false := by
  cases resolution <;> rfl

end Resolution

namespace Change

theorem isPending_iff {change : Change} : change.isPending = true ↔ change.status = .pending :=
  decide_eq_true_iff

theorem isPendingFor_iff {key : String} {change : Change} :
    change.isPendingFor key = true ↔ change.status = .pending ∧ change.key = key := by
  rw [isPendingFor, Bool.and_eq_true, isPending_iff, beq_iff_eq]

theorem isPendingFor_resolve (key : String) (resolution : Resolution) (change : Change) :
    (resolution.resolve change).isPendingFor key = false := by
  rw [isPendingFor, Resolution.isPending_resolve, Bool.false_and]

end Change

namespace Transaction

variable {meets : Change → Bool} {replace : Change → Change}

/-- A replacement is made at the first change that meets the condition and nowhere else. -/
theorem exists_of_replaceFirst? {before after : List Change}
    (h : replaceFirst? meets replace before = some after) :
    ∃ front change back, before = front ++ change :: back ∧
      (∀ other ∈ front, meets other = false) ∧ meets change = true ∧
      after = front ++ replace change :: back := by
  induction before generalizing after with
  | nil => cases h
  | cons first rest ih =>
    rw [replaceFirst?] at h
    by_cases hm : meets first = true
    · rw [if_pos hm] at h
      obtain rfl := Option.some.inj h
      exact ⟨[], first, rest, rfl, List.forall_mem_nil _, hm, rfl⟩
    · rw [if_neg hm] at h
      obtain ⟨replaced, hr, rfl⟩ := Option.map_eq_some_iff.mp h
      obtain ⟨front, change, back, rfl, hfront, hchange, rfl⟩ := ih hr
      refine ⟨first :: front, change, back, rfl, ?_, hchange, rfl⟩
      exact List.forall_mem_cons.mpr ⟨Bool.eq_false_iff.mpr hm, hfront⟩

theorem replaceFirst?_eq_none_iff {changes : List Change} :
    replaceFirst? meets replace changes = none ↔ ∀ change ∈ changes, meets change = false := by
  induction changes with
  | nil => exact iff_of_true rfl (List.forall_mem_nil _)
  | cons first rest ih =>
    rw [replaceFirst?, List.forall_mem_cons, ← ih]
    by_cases hm : meets first = true
    · simp [hm]
    · simp [hm, Option.map_eq_none_iff]

theorem resolveFirst?_eq_none_iff {t : Transaction} {key : String} {resolve : Change → Change} :
    t.resolveFirst? key resolve = none ↔
      ∀ change ∈ t.changes, change.isPendingFor key = false := by
  rw [resolveFirst?, Option.map_eq_none_iff, replaceFirst?_eq_none_iff]

theorem replaceFirst?_of_pos {change : Change} (rest : List Change) (h : meets change = true) :
    replaceFirst? meets replace (change :: rest) = some (replace change :: rest) := if_pos h

theorem replaceFirst?_of_neg {change : Change} (rest : List Change) (h : meets change = false) :
    replaceFirst? meets replace (change :: rest) =
      (replaceFirst? meets replace rest).map (change :: ·) := if_neg (by rw [h]; decide)

/-- What does not meet the condition is passed over. -/
theorem replaceFirst?_append {front : List Change} (back : List Change)
    (h : ∀ change ∈ front, meets change = false) :
    replaceFirst? meets replace (front ++ back) =
      (replaceFirst? meets replace back).map (front ++ ·) := by
  induction front with
  | nil => exact Option.map_id'.symm
  | cons first rest ih =>
    obtain ⟨hfirst, hrest⟩ := List.forall_mem_cons.mp h
    rw [List.cons_append, replaceFirst?_of_neg _ hfirst, ih hrest, Option.map_map]
    rfl

theorem replaceFirst?_concat (changes : List Change) {change : Change}
    (h : meets change = false) :
    replaceFirst? meets replace (changes ++ [change]) =
      (replaceFirst? meets replace changes).map (· ++ [change]) := by
  induction changes with
  | nil => exact replaceFirst?_of_neg [] h
  | cons first rest ih =>
    rw [List.cons_append]
    cases hm : meets first with
    | true => rw [replaceFirst?_of_pos _ hm, replaceFirst?_of_pos _ hm]; rfl
    | false =>
      rw [replaceFirst?_of_neg _ hm, replaceFirst?_of_neg _ hm, ih, Option.map_map, Option.map_map]
      rfl

/-- Replacements under two conditions that no change meets both of, before or after, do not see
each other. -/
theorem replaceFirst?_replaced {other : Change → Bool} {replaceOther : Change → Change}
    (hmeets : ∀ change, meets change = true →
      other change = false ∧ other (replace change) = false)
    (hother : ∀ change, other change = true → meets (replaceOther change) = false)
    (changes : List Change) :
    replaceFirst? other replaceOther ((replaceFirst? meets replace changes).getD changes) =
      (replaceFirst? other replaceOther changes).map fun next =>
        (replaceFirst? meets replace next).getD next := by
  induction changes with
  | nil => rfl
  | cons change rest ih =>
    cases hm : meets change with
    | true =>
      obtain ⟨hsame, hreplaced⟩ := hmeets change hm
      rw [replaceFirst?_of_pos rest hm, Option.getD_some, replaceFirst?_of_neg rest hreplaced,
        replaceFirst?_of_neg rest hsame, Option.map_map]
      congr 1
      funext next
      rw [Function.comp_apply, replaceFirst?_of_pos next hm, Option.getD_some]
    | false =>
      have hkept : ∀ next, (replaceFirst? meets replace (change :: next)).getD (change :: next) =
          change :: (replaceFirst? meets replace next).getD next := by
        intro next
        rw [replaceFirst?_of_neg next hm]
        cases replaceFirst? meets replace next <;> rfl
      rw [hkept]
      cases ho : other change with
      | true =>
        rw [replaceFirst?_of_pos _ ho, replaceFirst?_of_pos _ ho, Option.map_some,
          replaceFirst?_of_neg rest (hother change ho)]
        cases replaceFirst? meets replace rest <;> rfl
      | false =>
        rw [replaceFirst?_of_neg _ ho, replaceFirst?_of_neg _ ho, ih, Option.map_map,
          Option.map_map]
        congr 1
        funext next
        exact (hkept next).symm

/-- The first change that meets the condition is also the first of any part of the list that has
all of those. -/
theorem replaceFirst?_filter {keep : Change → Bool}
    (hmeets : ∀ change, meets change = true → keep change = true ∧ keep (replace change) = true)
    (changes : List Change) :
    replaceFirst? meets replace (changes.filter keep) =
      (replaceFirst? meets replace changes).map (List.filter keep) := by
  induction changes with
  | nil => rfl
  | cons change rest ih =>
    rw [replaceFirst?]
    by_cases hm : meets change = true
    · obtain ⟨hkeep, hreplaced⟩ := hmeets change hm
      rw [if_pos hm, List.filter_cons_of_pos hkeep, replaceFirst?, if_pos hm, Option.map_some,
        List.filter_cons_of_pos hreplaced]
    · rw [if_neg hm, Option.map_map]
      by_cases hkeep : keep change = true
      · rw [List.filter_cons_of_pos hkeep, replaceFirst?, if_neg hm, ih, Option.map_map]
        congr 1
        funext replaced
        exact (List.filter_cons_of_pos hkeep).symm
      · rw [List.filter_cons_of_neg hkeep, ih]
        congr 1
        funext replaced
        exact (List.filter_cons_of_neg hkeep).symm

/-- A part of the list that has no change that meets the condition, before or after, is left
alone. -/
theorem filter_of_replaceFirst? {keep : Change → Bool} {before after : List Change}
    (h : replaceFirst? meets replace before = some after)
    (hmeets : ∀ change, meets change = true → keep change = false ∧ keep (replace change) = false) :
    after.filter keep = before.filter keep := by
  obtain ⟨front, change, back, rfl, -, hchange, rfl⟩ := exists_of_replaceFirst? h
  obtain ⟨hkeep, hreplaced⟩ := hmeets change hchange
  rw [List.filter_append, List.filter_append, List.filter_cons_of_neg (by simp [hreplaced]),
    List.filter_cons_of_neg (by simp [hkeep])]

end Transaction

end RadioAdmin
